import Mathlib.Algebra.Group.Nat.Defs
import Mathlib.Data.Nat.Notation

/-!
# Hexadecimal digits

`Nat.toDigits 16` and padding with zeros can be undone: `readHex` reads the number back.
So a number below a power of sixteen is determined by its padded digits.
-/

namespace Anemoi

/-- The value of a lowercase hexadecimal digit. -/
def hexValue (c : Char) : ℕ :=
  if c.isDigit then c.toNat - '0'.toNat else c.toNat - 'a'.toNat + 10

theorem hexValue_digitChar : ∀ n < 16, hexValue (Nat.digitChar n) = n := by decide

/-- The number with the given digits, the most significant first. -/
def readHex (digits : List Char) : ℕ :=
  digits.foldl (fun value c => 16 * value + hexValue c) 0

theorem readHex_toDigits (n : ℕ) : readHex (Nat.toDigits 16 n) = n := by
  induction n using Nat.strongRecOn with
  | ind n ih =>
      by_cases h : n < 16
      · rw [Nat.toDigits_of_lt_base h]
        simp [readHex, hexValue_digitChar n h]
      · have hdiv := ih (n / 16) (by omega)
        rw [readHex] at hdiv
        rw [Nat.toDigits_of_base_le (by decide) (by omega), readHex, List.foldl_append, hdiv,
          List.foldl_cons, List.foldl_nil, hexValue_digitChar _ (Nat.mod_lt _ (by decide))]
        omega

theorem readHex_leftpad (width : ℕ) (digits : List Char) :
    readHex (List.leftpad width '0' digits) = readHex digits := by
  have hzeros : ∀ n, (List.replicate n '0').foldl (fun v c => 16 * v + hexValue c) 0 = 0 := by
    intro n
    induction n with
    | zero => rfl
    | succ n ih => rw [List.replicate_succ, List.foldl_cons]; exact ih
  rw [List.leftpad, readHex, List.foldl_append, hzeros, readHex]

/-- The `width` digits of a number. -/
def hexDigits (width n : ℕ) : List Char :=
  List.leftpad width '0' (Nat.toDigits 16 n)

theorem length_hexDigits {width n : ℕ} (hwidth : 0 < width) (h : n < 16 ^ width) :
    (hexDigits width n).length = width := by
  rw [hexDigits, List.length_leftpad,
    Nat.max_eq_left ((Nat.length_toDigits_le_iff (by decide) hwidth).mpr h)]

theorem hexDigits_injective (width : ℕ) : Function.Injective (hexDigits width) := by
  intro m n h
  have hread := congrArg readHex h
  rwa [hexDigits, hexDigits, readHex_leftpad, readHex_leftpad, readHex_toDigits,
    readHex_toDigits] at hread

end Anemoi
