import Mathlib.Data.List.DropRight

/-!
# Lines and bytes of a text

`lines`, `trim`, `stripPrefix` and `stripSuffix` are those of `str`, on lists of
characters. A line ends with a newline, before which one carriage return is dropped, and
what follows the last newline is a line of its own unless it is empty.
`lines_append_newline` and `lines_of_no_newline` read a text line by line. `encode` and
`decode` are the UTF-8 bytes of a text, and `exists_prefix_of_cutsBetweenChars` says what a
cut between two characters leaves of them.
-/

namespace Anemoi

/-- The Unicode property `White_Space`. -/
def isWhiteSpace (c : Char) : Bool :=
  let n := c.toNat
  9 ≤ n && n ≤ 13 || n == 0x20 || n == 0x85 || n == 0xA0 || n == 0x1680 ||
    0x2000 ≤ n && n ≤ 0x200A || n == 0x2028 || n == 0x2029 || n == 0x202F || n == 0x205F ||
    n == 0x3000

/-- The text without whitespace at either end. -/
def trim (text : List Char) : List Char :=
  (text.dropWhile isWhiteSpace).rdropWhile isWhiteSpace

def stripPrefix (pre text : List Char) : Option (List Char) :=
  if pre.isPrefixOf text then some (text.drop pre.length) else none

def stripSuffix (suf text : List Char) : Option (List Char) :=
  if suf.isSuffixOf text then some (text.take (text.length - suf.length)) else none

def stripCarriageReturn (line : List Char) : List Char :=
  if line.getLast? = some '\r' then line.dropLast else line

theorem stripPrefix_eq_some_iff {pre text rest : List Char} :
    stripPrefix pre text = some rest ↔ text = pre ++ rest := by
  rw [stripPrefix]
  constructor
  · intro h
    split at h
    next hpre =>
      obtain ⟨rest', rfl⟩ := List.isPrefixOf_iff_prefix.mp hpre
      rw [List.drop_left, Option.some.injEq] at h
      rw [h]
    next => cases h
  · rintro rfl
    rw [if_pos (List.isPrefixOf_iff_prefix.mpr (List.prefix_append _ _)), List.drop_left]

theorem stripPrefix_eq_none_iff {pre text : List Char} :
    stripPrefix pre text = none ↔ ¬pre <+: text := by
  rw [stripPrefix, ← List.isPrefixOf_iff_prefix]
  split
  · next h => simp [h]
  · next h => simp [h]

theorem stripSuffix_eq_some_iff {suf text rest : List Char} :
    stripSuffix suf text = some rest ↔ text = rest ++ suf := by
  rw [stripSuffix]
  have htake : ∀ rest' : List Char,
      (rest' ++ suf).take ((rest' ++ suf).length - suf.length) = rest' := fun rest' => by
    rw [List.length_append, Nat.add_sub_cancel, List.take_left]
  constructor
  · intro h
    split at h
    next hsuf =>
      obtain ⟨rest', rfl⟩ := List.isSuffixOf_iff_suffix.mp hsuf
      rw [htake, Option.some.injEq] at h
      rw [h]
    next => cases h
  · rintro rfl
    rw [if_pos (List.isSuffixOf_iff_suffix.mpr (List.suffix_append _ _)), htake]

/-- The lines of a text behind the characters `line` of its first line. -/
def linesFrom (line : List Char) : List Char → List (List Char)
  | [] => if line.isEmpty then [] else [line]
  | c :: cs =>
      if c = '\n' then stripCarriageReturn line :: linesFrom [] cs
      else linesFrom (line ++ [c]) cs

def lines (text : List Char) : List (List Char) :=
  linesFrom [] text

/-- Characters other than the newline extend the current line. -/
theorem linesFrom_append {l : List Char} (h : '\n' ∉ l) (line rest : List Char) :
    linesFrom line (l ++ rest) = linesFrom (line ++ l) rest := by
  induction l generalizing line with
  | nil => rw [List.nil_append, List.append_nil]
  | cons c l ih =>
      rw [List.mem_cons, not_or] at h
      rw [List.cons_append, linesFrom, if_neg (Ne.symm h.1), ih h.2, List.append_assoc,
        List.singleton_append]

theorem lines_append_newline {l : List Char} (h : '\n' ∉ l) (rest : List Char) :
    lines (l ++ '\n' :: rest) = stripCarriageReturn l :: lines rest := by
  rw [lines, linesFrom_append h, List.nil_append, linesFrom, if_pos rfl, lines]

theorem lines_of_no_newline {l : List Char} (h : '\n' ∉ l) :
    lines l = if l.isEmpty then [] else [l] := by
  have happend := linesFrom_append h [] []
  rw [List.append_nil, List.nil_append] at happend
  rw [lines, happend, linesFrom]

/-- The lines of a text that starts with complete lines. -/
theorem lines_flatMap_append {α : Type} {f : α → List Char} {l : List α}
    (h : ∀ a ∈ l, '\n' ∉ f a) (rest : List Char) :
    lines (l.flatMap (fun a => f a ++ ['\n']) ++ rest) =
      l.map (fun a => stripCarriageReturn (f a)) ++ lines rest := by
  induction l with
  | nil => rfl
  | cons a l ih =>
      rw [List.forall_mem_cons] at h
      rw [List.flatMap_cons, List.append_assoc, List.append_assoc, List.singleton_append,
        lines_append_newline h.1, ih h.2, List.map_cons, List.cons_append]

theorem mem_intercalate_of_mem {c : Char} {l sep : List Char} {ls : List (List Char)}
    (hl : l ∈ ls) (hc : c ∈ l) : c ∈ List.intercalate sep ls := by
  induction ls with
  | nil => cases hl
  | cons l' ls ih =>
      cases ls with
      | nil =>
          obtain rfl := List.mem_singleton.mp hl
          rwa [List.intercalate_singleton]
      | cons l'' ls =>
          rw [List.intercalate_cons_cons]
          rcases List.mem_cons.mp hl with rfl | hl
          · exact List.mem_append_left _ (List.mem_append_left _ hc)
          · exact List.mem_append_right _ (ih hl)

/-- A text is made up of lines. -/
theorem exists_intercalate_lines (text : List Char) :
    ∃ ls : List (List Char), (∀ l ∈ ls, '\n' ∉ l) ∧ text = List.intercalate ['\n'] ls := by
  have hlines : ∃ l ls, (∀ l' ∈ l :: ls, '\n' ∉ l') ∧
      text = List.intercalate ['\n'] (l :: ls) := by
    induction text with
    | nil => exact ⟨[], [], by simp, by simp⟩
    | cons c text ih =>
        obtain ⟨l, ls, hnone, rfl⟩ := ih
        by_cases hc : c = '\n'
        · refine ⟨[], l :: ls, List.forall_mem_cons.mpr ⟨List.not_mem_nil, hnone⟩, ?_⟩
          rw [hc, List.intercalate_cons_cons]
          rfl
        · rw [List.forall_mem_cons] at hnone
          refine ⟨c :: l, ls, List.forall_mem_cons.mpr ⟨?_, hnone.2⟩, ?_⟩
          · rw [List.mem_cons, not_or]
            exact ⟨Ne.symm hc, hnone.1⟩
          · rw [List.intercalate_cons_cons_left]
  obtain ⟨l, ls, h⟩ := hlines
  exact ⟨l :: ls, h⟩

/-- The lines that a text is made up of are read back, as far as they are not empty. -/
theorem filterMap_lines_intercalate {α : Type} {f : List Char → Option α} (hf : f [] = none)
    {ls : List (List Char)} (hnewline : ∀ l ∈ ls, '\n' ∉ l) (hreturn : ∀ l ∈ ls, '\r' ∉ l) :
    (lines (List.intercalate ['\n'] ls)).filterMap f = ls.filterMap f := by
  induction ls with
  | nil => rfl
  | cons l ls ih =>
      rw [List.forall_mem_cons] at hnewline hreturn
      cases ls with
      | nil =>
          rw [List.intercalate_singleton, lines_of_no_newline hnewline.1]
          split
          · next hempty =>
              rw [List.isEmpty_iff.mp hempty, List.filterMap_cons_none hf]
          · rfl
      | cons l' ls =>
          have hstrip : stripCarriageReturn l = l :=
            if_neg fun hlast => hreturn.1 (List.mem_of_mem_getLast? hlast)
          rw [List.intercalate_cons_cons, List.append_assoc, List.singleton_append,
            lines_append_newline hnewline.1, hstrip, List.filterMap_cons, List.filterMap_cons,
            ih hnewline.2 hreturn.2]

/-- Trimming the end of a text that starts without whitespace leaves an initial part. -/
theorem trim_prefix {c : Char} (hc : isWhiteSpace c = false) (l : List Char) :
    trim (c :: l) <+: c :: l := by
  rw [trim, List.dropWhile_cons_of_neg (by simp [hc])]
  exact List.rdropWhile_prefix isWhiteSpace _

/-- What trimming drops before the text that is left is whitespace. -/
theorem exists_append_trim (text : List Char) :
    ∃ a b, text = a ++ (trim text ++ b) ∧ ∀ c ∈ a, isWhiteSpace c = true := by
  obtain ⟨b, hb⟩ := List.rdropWhile_prefix isWhiteSpace (text.dropWhile isWhiteSpace)
  refine ⟨text.takeWhile isWhiteSpace, b, ?_, fun c hc => List.mem_takeWhile_imp hc⟩
  rw [trim, hb, List.takeWhile_append_dropWhile]

/-- A text without whitespace at its ends is left alone. -/
theorem trim_eq_self {c c' : Char} {l : List Char} (hc : isWhiteSpace c = false)
    (hc' : isWhiteSpace c' = false) : trim (c :: l ++ [c']) = c :: l ++ [c'] := by
  rw [trim, List.cons_append, List.dropWhile_cons_of_neg (by simp [hc]), ← List.cons_append,
    List.rdropWhile_concat_neg _ _ _ (by simp [hc'])]

theorem stripCarriageReturn_concat {c : Char} (h : c ≠ '\r') (l : List Char) :
    stripCarriageReturn (l ++ [c]) = l ++ [c] := by
  rw [stripCarriageReturn, List.getLast?_concat, if_neg (by simpa using h)]

/-! ### Bytes -/

/-- The UTF-8 bytes of a text. -/
def encode (text : List Char) : ByteArray :=
  (String.ofList text).toUTF8

/-- The text with the given UTF-8 bytes, if there is one. -/
def decode (bytes : ByteArray) : Option (List Char) :=
  (String.fromUTF8? bytes).map String.toList

theorem encode_eq (l : List Char) : encode l = l.utf8Encode := by
  rw [encode, String.toUTF8_eq_toByteArray, String.toByteArray_ofList]

theorem encode_append (l l' : List Char) : encode (l ++ l') = encode l ++ encode l' := by
  simp only [encode, String.ofList_append, String.toUTF8_eq_toByteArray,
    String.toByteArray_append]

@[simp] theorem encode_nil : encode [] = ByteArray.empty := rfl

@[simp] theorem decode_encode (l : List Char) : decode (encode l) = some l := by
  have hvalid : (encode l).IsValidUTF8 := (String.ofList l).isValidUTF8
  have hstring : String.fromUTF8 (encode l) hvalid = String.ofList l := rfl
  rw [decode, String.fromUTF8?, dif_pos hvalid, hstring, Option.map_some, String.toList_ofList]

theorem encode_injective {l l' : List Char} (h : encode l = encode l') : l = l' := by
  have hdecode := congrArg decode h
  rw [decode_encode, decode_encode] at hdecode
  exact Option.some.inj hdecode

/-- The first `n` bytes of a text end with a character, or are all of them. -/
def CutsBetweenChars (l : List Char) (n : ℕ) : Prop :=
  (encode l).size ≤ n ∨ (String.Pos.Raw.mk n).IsValid (String.ofList l)

theorem cutsBetweenChars_append (l l' : List Char) :
    CutsBetweenChars (l ++ l') (encode l).size := by
  refine Or.inr (String.Pos.Raw.isValid_iff_exists_append.mpr
    ⟨String.ofList l, String.ofList l', String.ofList_append, ?_⟩)
  rw [String.Pos.Raw.ext_iff, encode, String.toUTF8_eq_toByteArray, String.size_toByteArray]
  rfl

/-- Cut between two characters, the bytes of a text are those of an initial part. -/
theorem exists_prefix_of_cutsBetweenChars {l : List Char} {n : ℕ} (h : CutsBetweenChars l n) :
    ∃ p, p <+: l ∧ (encode l).extract 0 n = encode p ∧ (encode p).size ≤ n := by
  rcases h with hall | hvalid
  · have hdata : (encode l).data.extract 0 n = (encode l).data :=
      Array.extract_eq_self_of_le hall
    exact ⟨l, List.prefix_rfl, ByteArray.ext (ByteArray.data_extract.trans hdata), hall⟩
  · obtain ⟨s, s', hs, hn⟩ := String.Pos.Raw.isValid_iff_exists_append.mp hvalid
    have hl : l = s.toList ++ s'.toList := by
      rw [← String.toList_append, ← hs, String.toList_ofList]
    have hsize : (encode s.toList).size = n := by
      rw [encode, String.ofList_toList, String.toUTF8_eq_toByteArray, String.size_toByteArray]
      exact (congrArg String.Pos.Raw.byteIdx hn).symm
    refine ⟨s.toList, ⟨s'.toList, hl.symm⟩, ?_, hsize.le⟩
    rw [hl, encode_append, ByteArray.extract_append_eq_left hsize.symm]

/-- Cut inside a character, the bytes of a text are no text, whatever stands before
them. -/
theorem decode_of_cut_inside {l : List Char} {n : ℕ} (h : ¬CutsBetweenChars l n)
    (before : List Char) : decode (encode before ++ (encode l).extract 0 n) = none := by
  obtain ⟨hlt, hinside⟩ := not_or.mp h
  have hinvalid : ¬(encode before ++ (encode l).extract 0 n).IsValidUTF8 := by
    rintro ⟨m, hm⟩
    rw [encode_eq before] at hm
    obtain ⟨rest, rfl⟩ := List.isPrefix_of_utf8Encode_append_eq_utf8Encode _ hm
    rw [List.utf8Encode_append, ByteArray.append_right_inj] at hm
    exact hinside (String.Pos.Raw.isValid_iff_isValidUTF8_extract_zero.mpr
      ⟨(not_le.mp hlt).le, rest, hm⟩)
  rw [decode, String.fromUTF8?, dif_neg hinvalid, Option.map_none]

example : lines "a\n\r\nb".toList = [['a'], [], ['b']] := by decide

end Anemoi
