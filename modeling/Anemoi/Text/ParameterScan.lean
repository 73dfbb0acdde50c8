import Anemoi.Text.Lines
import Anemoi.Text.ModelName

/-!
# The scan for the parameter class, byte by byte

The source looks for the `NNb` token of a model id in the bytes of the id, and cuts the digits
out of the id by their byte positions, which panics between the bytes of one character. The
loops end because each turn leaves fewer bytes ahead. A byte below 128 is a character of its
own, so digits and the `b` behind them are at character boundaries, and the loops find what
`scanParameterClass` finds among the characters: the first maximal run of digits that a `b`
follows.
-/

namespace Anemoi

/-! ### The loops -/

/-- `str::as_bytes`. -/
def asBytes (id : String) : List UInt8 :=
  id.toUTF8.data.toList

/-- `u8::is_ascii_digit`. -/
def isAsciiDigit (byte : UInt8) : Bool :=
  48 ≤ byte && byte ≤ 57

/-- `b'b'` or `b'B'`. -/
def isAsciiB (byte : UInt8) : Bool :=
  byte == 98 || byte == 66

/-- The inner loop: the first position from `i` on that is not one of a digit. -/
def skipDigits (bytes : List UInt8) (i : ℕ) : ℕ :=
  if h : i < bytes.length ∧ bytes[i]?.any isAsciiDigit then skipDigits bytes (i + 1) else i
  termination_by bytes.length - i
  decreasing_by omega

theorem le_skipDigits (bytes : List UInt8) (i : ℕ) : i ≤ skipDigits bytes i := by
  fun_induction skipDigits bytes i with
  | case1 i h ih => omega
  | case2 i h => exact le_rfl

theorem lt_skipDigits {bytes : List UInt8} {i : ℕ} (h : i < bytes.length)
    (hdigit : bytes[i]?.any isAsciiDigit = true) : i < skipDigits bytes i := by
  have hle := le_skipDigits bytes (i + 1)
  rw [skipDigits, dif_pos ⟨h, hdigit⟩]
  omega

/-- The outer loop: where the digits start and end at which it returns, if it does. -/
def findParameterToken (bytes : List UInt8) (i : ℕ) : Option (ℕ × ℕ) :=
  if h : i < bytes.length then
    if hdigit : bytes[i]?.any isAsciiDigit then
      let stop := skipDigits bytes i
      if bytes[stop]?.any isAsciiB then some (i, stop) else findParameterToken bytes stop
    else findParameterToken bytes (i + 1)
  else none
  termination_by bytes.length - i
  decreasing_by
    · have hlt := lt_skipDigits h hdigit
      omega
    · omega

/-- `str::is_char_boundary`: not in front of a continuation byte. -/
def isCharBoundary (bytes : List UInt8) (i : ℕ) : Bool :=
  if i = 0 then true
  else if bytes.length ≤ i then i = bytes.length
  else bytes[i]?.any fun byte => byte < 0x80 || 0xC0 ≤ byte

/-- `&id[start..stop]`; there is none where the source panics. -/
def slice (id : String) (start stop : ℕ) : Option String :=
  if start ≤ stop && isCharBoundary (asBytes id) start && isCharBoundary (asBytes id) stop then
    String.fromUTF8? (id.toUTF8.extract start stop)
  else none

namespace ByteScan

/-- What both scans return for the class; there is none where they panic. -/
def parameterClass (id : String) : Option String :=
  match findParameterToken (asBytes id) 0 with
  | some (start, stop) => (slice id start stop).map fun digits => digits ++ "b"
  | none => some "unknown"

def extractParameterClass (id : String) : Option String :=
  parameterClass id

def inferFamilyAndClass (modelId : String) : Option (String × String) :=
  (parameterClass modelId).map fun parameterClass => (familyPrefix modelId, parameterClass)

end ByteScan

/-! ### The loops on pieces of the bytes -/

section Pieces

variable (before : List UInt8) {digits : List UInt8} (after : List UInt8) {byte : UInt8}

theorem any_getElem?_append (p : UInt8 → Bool) (before after : List UInt8) :
    (before ++ after)[before.length]?.any p = after.head?.any p := by
  rw [List.getElem?_append_right le_rfl, Nat.sub_self, List.head?_eq_getElem?]

theorem skipDigits_append {after : List UInt8} (hdigits : ∀ d ∈ digits, isAsciiDigit d = true)
    (hafter : after.head?.any isAsciiDigit = false) :
    skipDigits (before ++ (digits ++ after)) before.length =
      before.length + digits.length := by
  induction digits generalizing before with
  | nil =>
      rw [List.nil_append, skipDigits, dif_neg, List.length_nil, Nat.add_zero]
      rw [any_getElem?_append, hafter]
      simp
  | cons d digits ih =>
      obtain ⟨hd, hdigits⟩ := List.forall_mem_cons.mp hdigits
      have hnext := ih (before ++ [d]) hdigits
      rw [List.length_append, List.append_assoc, List.singleton_append, List.length_singleton]
        at hnext
      rw [List.cons_append, skipDigits, dif_pos, hnext, List.length_cons]
      · omega
      · rw [any_getElem?_append]
        simpa using hd

theorem findParameterToken_end (before : List UInt8) :
    findParameterToken before before.length = none := by
  rw [findParameterToken, dif_neg (lt_irrefl _)]

/-- A byte that is no digit is passed over. -/
theorem findParameterToken_skip {after : List UInt8} (h : isAsciiDigit byte = false) :
    findParameterToken (before ++ byte :: after) before.length =
      findParameterToken (before ++ byte :: after) (before.length + 1) := by
  have hnot : ¬(before ++ byte :: after)[before.length]?.any isAsciiDigit = true := by
    rw [any_getElem?_append, List.head?_cons, Option.any_some, h]
    exact Bool.false_ne_true
  rw [findParameterToken, dif_pos (by simp), dif_neg hnot]

theorem findParameterToken_skipAll {passed : List UInt8}
    (h : ∀ b ∈ passed, isAsciiDigit b = false) :
    findParameterToken (before ++ (passed ++ after)) before.length =
      findParameterToken (before ++ (passed ++ after)) (before.length + passed.length) := by
  induction passed generalizing before with
  | nil => rfl
  | cons b passed ih =>
      obtain ⟨hb, hpassed⟩ := List.forall_mem_cons.mp h
      have hrest := ih (before ++ [b]) hpassed
      rw [List.length_append, List.append_assoc, List.singleton_append, List.length_singleton]
        at hrest
      rw [List.cons_append, findParameterToken_skip before hb, hrest, List.length_cons,
        Nat.add_assoc, Nat.add_comm 1]

/-- A maximal run of digits is read at once. -/
theorem findParameterToken_digits (hne : digits ≠ [])
    (hdigits : ∀ d ∈ digits, isAsciiDigit d = true)
    (hafter : after.head?.any isAsciiDigit = false) :
    findParameterToken (before ++ (digits ++ after)) before.length =
      if after.head?.any isAsciiB then
        some (before.length, before.length + digits.length)
      else
        findParameterToken (before ++ (digits ++ after)) (before.length + digits.length) := by
  have hfirst : (before ++ (digits ++ after))[before.length]?.any isAsciiDigit = true := by
    obtain ⟨d, rest, rfl⟩ := List.exists_cons_of_ne_nil hne
    rw [any_getElem?_append]
    exact hdigits d List.mem_cons_self
  have hlast : (before ++ (digits ++ after))[before.length + digits.length]?.any isAsciiB =
      after.head?.any isAsciiB := by
    rw [← List.append_assoc, ← List.length_append, any_getElem?_append]
  have hlt : before.length < (before ++ (digits ++ after)).length := by
    have hpos := List.length_pos_of_ne_nil hne
    rw [List.length_append, List.length_append]
    omega
  rw [findParameterToken, dif_pos hlt, dif_pos hfirst, skipDigits_append before hdigits hafter]
  dsimp only
  rw [hlast]

end Pieces

/-! ### The bytes of characters -/

theorem asBytes_eq (id : String) : asBytes id = id.toList.flatMap String.utf8EncodeChar := by
  have hbytes : id.toUTF8 = (id.toList.flatMap String.utf8EncodeChar).toByteArray := by
    rw [String.toUTF8_eq_toByteArray, ← String.utf8Encode_toList]
    rfl
  rw [asBytes, hbytes, List.data_toByteArray]

/-- A character below 128 is one byte. -/
theorem utf8EncodeChar_of_lt {c : Char} (h : c.toNat < 128) :
    String.utf8EncodeChar c = [c.val.toUInt8] := by
  refine String.utf8EncodeChar_eq_singleton (Char.utf8Size_eq_one_iff.mpr ?_)
  rw [UInt32.le_iff_toNat_le]
  exact Nat.le_of_lt_succ h

/-- No byte of another character is below 128. -/
theorem le_of_mem_utf8EncodeChar {c : Char} (h : 128 ≤ c.toNat) {byte : UInt8}
    (hbyte : byte ∈ String.utf8EncodeChar c) : 128 ≤ byte := by
  have hor : ∀ x y : UInt8, 128 ≤ y → 128 ≤ x ||| y := by
    intro x y hy
    rw [UInt8.le_iff_toNat_le] at hy ⊢
    rw [UInt8.toNat_or]
    exact hy.trans Nat.right_le_or
  rcases c.utf8Size_eq with hsize | hsize | hsize | hsize
  · have hle := Char.utf8Size_eq_one_iff.mp hsize
    rw [UInt32.le_iff_toNat_le] at hle
    exact absurd h (Nat.not_le.mpr (Nat.lt_succ_of_le hle))
  · rw [String.utf8EncodeChar_eq_cons_cons hsize] at hbyte
    simp only [List.mem_cons, List.not_mem_nil, or_false] at hbyte
    rcases hbyte with rfl | rfl <;> exact hor _ _ (by decide)
  · rw [String.utf8EncodeChar_eq_cons_cons_cons hsize] at hbyte
    simp only [List.mem_cons, List.not_mem_nil, or_false] at hbyte
    rcases hbyte with rfl | rfl | rfl <;> exact hor _ _ (by decide)
  · rw [String.utf8EncodeChar_eq_cons_cons_cons_cons hsize] at hbyte
    simp only [List.mem_cons, List.not_mem_nil, or_false] at hbyte
    rcases hbyte with rfl | rfl | rfl | rfl <;> exact hor _ _ (by decide)

theorem toNat_toUInt8 {c : Char} (h : c.toNat < 128) : c.val.toUInt8.toNat = c.toNat := by
  rw [UInt32.toNat_toUInt8]
  exact Nat.mod_eq_of_lt (h.trans (by decide))

/-- Whether a character is among some below 128 can be seen from its first byte. -/
theorem head?_utf8EncodeChar {p : UInt8 → Bool} {q : Char → Bool}
    (hlt : ∀ c, c.toNat < 128 → p c.val.toUInt8 = q c) (hp : ∀ byte, 128 ≤ byte → p byte = false)
    (hq : ∀ c, 128 ≤ c.toNat → q c = false) (text : List Char) :
    (text.flatMap String.utf8EncodeChar).head?.any p = text.head?.any q := by
  cases text with
  | nil => rfl
  | cons c text =>
      rw [List.flatMap_cons, List.head?_cons, Option.any_some]
      by_cases hc : c.toNat < 128
      · rw [utf8EncodeChar_of_lt hc, List.singleton_append, List.head?_cons, Option.any_some,
          hlt c hc]
      · obtain ⟨byte, rest, hbytes⟩ :=
          List.exists_cons_of_ne_nil (String.utf8EncodeChar_ne_nil (c := c))
        have hbyte := le_of_mem_utf8EncodeChar (not_lt.mp hc) (hbytes ▸ List.mem_cons_self)
        rw [hbytes, List.cons_append, List.head?_cons, Option.any_some, hp byte hbyte,
          hq c (not_lt.mp hc)]

theorem isAsciiDigit_toUInt8 {c : Char} (h : c.toNat < 128) :
    isAsciiDigit c.val.toUInt8 = c.isDigit := by
  rw [Bool.eq_iff_iff, isDigit_iff, isAsciiDigit, Bool.and_eq_true, decide_eq_true_eq,
    decide_eq_true_eq, UInt8.le_iff_toNat_le, UInt8.le_iff_toNat_le, toNat_toUInt8 h]
  rfl

theorem isAsciiB_toUInt8 {c : Char} (h : c.toNat < 128) : isAsciiB c.val.toUInt8 = isB c := by
  have hbyte : ∀ d : Char, d.toNat < 128 → (c.val.toUInt8 = d.val.toUInt8 ↔ c = d) := by
    intro d hd
    rw [← UInt8.toNat_inj, toNat_toUInt8 h, toNat_toUInt8 hd, Char.toNat_inj]
  rw [Bool.eq_iff_iff, isAsciiB, isB, Bool.or_eq_true, Bool.or_eq_true, beq_iff_eq, beq_iff_eq,
    beq_iff_eq, beq_iff_eq, ← hbyte 'b' (by decide), ← hbyte 'B' (by decide)]
  rfl

theorem isAsciiDigit_of_le {byte : UInt8} (h : 128 ≤ byte) : isAsciiDigit byte = false := by
  rw [UInt8.le_iff_toNat_le] at h
  have hlarge : ¬byte ≤ 57 := by
    rw [UInt8.le_iff_toNat_le]
    exact not_le.mpr (lt_of_lt_of_le (by decide) h)
  rw [isAsciiDigit, decide_eq_false hlarge, Bool.and_false]

theorem isAsciiB_of_le {byte : UInt8} (h : 128 ≤ byte) : isAsciiB byte = false := by
  rw [← Bool.not_eq_true, isAsciiB, Bool.or_eq_true, beq_iff_eq, beq_iff_eq]
  rintro (rfl | rfl) <;> exact absurd h (by decide)

theorem head?_isAsciiDigit (text : List Char) :
    (text.flatMap String.utf8EncodeChar).head?.any isAsciiDigit = text.head?.any Char.isDigit := by
  refine head?_utf8EncodeChar (fun c => isAsciiDigit_toUInt8)
    (fun byte => isAsciiDigit_of_le) ?_ text
  intro c hc
  rw [← Bool.not_eq_true, isDigit_iff]
  omega

theorem head?_isAsciiB (text : List Char) :
    (text.flatMap String.utf8EncodeChar).head?.any isAsciiB = text.head?.any isB := by
  refine head?_utf8EncodeChar (fun c => isAsciiB_toUInt8) (fun byte => isAsciiB_of_le) ?_ text
  intro c hc
  rw [← Bool.not_eq_true, isB, Bool.or_eq_true, beq_iff_eq, beq_iff_eq]
  rintro (rfl | rfl) <;> exact absurd hc (by decide)

/-- No byte of a character that is no digit is one. -/
theorem isAsciiDigit_of_mem {c : Char} (h : c.isDigit = false) :
    ∀ byte ∈ String.utf8EncodeChar c, isAsciiDigit byte = false := by
  intro byte hbyte
  by_cases hc : c.toNat < 128
  · rw [utf8EncodeChar_of_lt hc, List.mem_singleton] at hbyte
    rw [hbyte, isAsciiDigit_toUInt8 hc, h]
  · exact isAsciiDigit_of_le (le_of_mem_utf8EncodeChar (not_lt.mp hc) hbyte)

theorem lt_of_isDigit {c : Char} (h : c.isDigit = true) : c.toNat < 128 := by
  rw [isDigit_iff] at h
  omega

/-- Every digit is one byte. -/
theorem flatMap_digits {digits : List Char} (h : ∀ c ∈ digits, c.isDigit = true) :
    digits.flatMap String.utf8EncodeChar = digits.map fun c => c.val.toUInt8 := by
  induction digits with
  | nil => rfl
  | cons c digits ih =>
      obtain ⟨hc, hdigits⟩ := List.forall_mem_cons.mp h
      rw [List.flatMap_cons, utf8EncodeChar_of_lt (lt_of_isDigit hc), ih hdigits, List.map_cons,
        List.singleton_append]

/-! ### What the scan finds -/

section Found

variable {id : String} {before digits after : List Char}

theorem asBytes_of_toList (hid : id.toList = before ++ (digits ++ after))
    (hdigits : ∀ c ∈ digits, c.isDigit = true) :
    asBytes id = before.flatMap String.utf8EncodeChar ++
      (digits.map (fun c => c.val.toUInt8) ++ after.flatMap String.utf8EncodeChar) := by
  rw [asBytes_eq, hid, List.flatMap_append, List.flatMap_append, flatMap_digits hdigits]

theorem isAsciiDigit_of_mem_map (hdigits : ∀ c ∈ digits, c.isDigit = true) :
    ∀ byte ∈ digits.map (fun c => c.val.toUInt8), isAsciiDigit byte = true := by
  intro byte hbyte
  obtain ⟨c, hc, rfl⟩ := List.mem_map.mp hbyte
  rw [isAsciiDigit_toUInt8 (lt_of_isDigit (hdigits c hc)), hdigits c hc]

/-- In front of a byte below 128 there is a boundary. -/
theorem isCharBoundary_append {front back : List UInt8}
    (h : back.head?.any (fun byte => byte < 0x80) = true) :
    isCharBoundary (front ++ back) front.length = true := by
  obtain ⟨byte, hbyte, hlt⟩ := (Option.any_eq_true _ _).mp h
  have hlen : ¬(front ++ back).length ≤ front.length := by
    obtain ⟨rest, rfl⟩ := List.head?_eq_some_iff.mp hbyte
    simp
  rw [isCharBoundary, if_neg hlen, any_getElem?_append, hbyte, Option.any_some, hlt, Bool.true_or,
    ite_self]

theorem size_toByteArray_ofList (text : List Char) :
    (String.ofList text).toByteArray.size = (text.flatMap String.utf8EncodeChar).length := by
  rw [String.toByteArray_ofList]
  exact List.size_toByteArray

/-- The digits in front of a `b` are cut out at character boundaries. -/
theorem slice_digits (hid : id.toList = before ++ (digits ++ after)) (hne : digits ≠ [])
    (hdigits : ∀ c ∈ digits, c.isDigit = true) (hafter : after.head?.any isB = true) :
    slice id (before.flatMap String.utf8EncodeChar).length
      ((before.flatMap String.utf8EncodeChar).length + digits.length) =
        some (String.ofList digits) := by
  have hlt : ∀ byte : UInt8, isAsciiDigit byte = true ∨ isAsciiB byte = true →
      decide (byte < 0x80) = true := by
    intro byte h
    rw [decide_eq_true_eq]
    by_contra hle
    have hle := UInt8.not_lt.mp hle
    rw [isAsciiDigit_of_le hle, isAsciiB_of_le hle] at h
    rcases h with h | h <;> exact Bool.false_ne_true h
  have hstart : isCharBoundary (asBytes id) (before.flatMap String.utf8EncodeChar).length := by
    rw [asBytes_of_toList hid hdigits]
    apply isCharBoundary_append
    obtain ⟨c, rest, rfl⟩ := List.exists_cons_of_ne_nil hne
    exact hlt _ (.inl (isAsciiDigit_of_mem_map hdigits _ List.mem_cons_self))
  have hstop : isCharBoundary (asBytes id)
      ((before.flatMap String.utf8EncodeChar).length + digits.length) := by
    rw [asBytes_of_toList hid hdigits, ← List.append_assoc,
      ← List.length_map (fun c : Char => c.val.toUInt8), ← List.length_append]
    apply isCharBoundary_append
    rw [← head?_isAsciiB] at hafter
    obtain ⟨byte, hbyte, hb⟩ := (Option.any_eq_true _ _).mp hafter
    rw [hbyte, Option.any_some]
    exact hlt byte (.inr hb)
  have hcut : id.toUTF8.extract (before.flatMap String.utf8EncodeChar).length
      ((before.flatMap String.utf8EncodeChar).length + digits.length) =
        (String.ofList digits).toByteArray := by
    have hsize : (String.ofList digits).toByteArray.size = digits.length := by
      rw [size_toByteArray_ofList, flatMap_digits hdigits, List.length_map]
    rw [String.toUTF8_eq_toByteArray, ← String.ofList_toList (s := id), hid, String.ofList_append,
      String.ofList_append, String.toByteArray_append, String.toByteArray_append,
      ← size_toByteArray_ofList, ← Nat.add_zero (String.ofList before).toByteArray.size,
      Nat.add_assoc, ByteArray.extract_append_size_add, ← hsize, Nat.zero_add]
    exact ByteArray.extract_append_eq_left rfl
  rw [slice, hstart, hstop, hcut, decide_eq_true (Nat.le_add_right _ _)]
  exact dif_pos (String.ofList digits).isValidUTF8

/-- From a position that no run of digits crosses, the byte scan finds what the scan of the
characters finds, and can cut it out. -/
theorem findParameterToken_cases (before text : List Char) (hid : id.toList = before ++ text) :
    findParameterToken (asBytes id) (before.flatMap String.utf8EncodeChar).length = none ∧
        scanParameterClass [] text = none ∨
      ∃ start stop found,
        findParameterToken (asBytes id) (before.flatMap String.utf8EncodeChar).length =
          some (start, stop) ∧
        slice id start stop = some found ∧ scanParameterClass [] text = some (found ++ "b") := by
  induction text using digitRuns_induction generalizing before with
  | nil =>
      rw [List.append_nil] at hid
      rw [asBytes_eq, hid, findParameterToken_end]
      exact .inl ⟨rfl, rfl⟩
  | other c text hc ih =>
      have hnext := ih (before ++ [c]) (by rw [hid, List.append_assoc]; rfl)
      have hbytes : asBytes id = before.flatMap String.utf8EncodeChar ++
          (String.utf8EncodeChar c ++ text.flatMap String.utf8EncodeChar) := by
        rw [asBytes_eq, hid, List.flatMap_append, List.flatMap_cons]
      have hskip := findParameterToken_skipAll (before.flatMap String.utf8EncodeChar)
        (text.flatMap String.utf8EncodeChar) (isAsciiDigit_of_mem hc)
      rw [← hbytes] at hskip
      rwa [hskip, scanParameterClass_other hc, ← List.length_append, ← List.flatMap_singleton
        (f := String.utf8EncodeChar) (x := c), ← List.flatMap_append]
  | digits run text hne hdigits htext ih =>
      have hnext := ih (before ++ run) (by rw [hid, List.append_assoc])
      have hread := findParameterToken_digits (before.flatMap String.utf8EncodeChar)
        (text.flatMap String.utf8EncodeChar) (mt List.map_eq_nil_iff.mp hne)
        (isAsciiDigit_of_mem_map hdigits) (by rw [head?_isAsciiDigit, htext])
      rw [← asBytes_of_toList hid hdigits, head?_isAsciiB, List.length_map] at hread
      rw [hread, scanParameterClass_append [] hdigits, List.nil_append,
        scanParameterClass_run hne htext]
      by_cases hb : text.head?.any isB = true
      · rw [if_pos hb, if_pos hb, String.ofList_append]
        exact .inr ⟨_, _, _, rfl, slice_digits hid hne hdigits hb, rfl⟩
      · rw [if_neg hb, if_neg hb]
        rwa [List.flatMap_append, List.length_append, flatMap_digits hdigits,
          List.length_map] at hnext

theorem ByteScan.parameterClass_eq (id : String) :
    parameterClass id = some (parameterToken id) := by
  rcases findParameterToken_cases [] id.toList rfl with
    ⟨hnone, hscan⟩ | ⟨start, stop, found, hsome, hslice, hscan⟩
  · rw [parameterClass, parameterToken, hscan]
    rw [List.flatMap_nil, List.length_nil] at hnone
    rw [hnone]
    rfl
  · rw [parameterClass, parameterToken, hscan]
    rw [List.flatMap_nil, List.length_nil] at hsome
    rw [hsome]
    exact congrArg (Option.map fun digits => digits ++ "b") hslice

end Found

end Anemoi
