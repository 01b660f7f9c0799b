import Mathlib.Tactic.SplitIfs
import ProxyForge.Text.Utf8

/-!
# The order of texts and the order of their bytes

Texts are ordered by their characters, and their UTF-8 bytes are ordered in the same way: of two characters the smaller
has the smaller bytes, and it has them at a place where both still have one (`utf8EncodeChar_append_lt`), so the first
characters in which two texts differ decide both orders (`utf8_lt_iff`).
-/

namespace ProxyForge.Text

/-- Numbers of four digits are in the order of their digits, where the lower three are to the base 64. -/
theorem digits_lt {m n : Nat} (less : m < n) (large : n < 8 * 262144) :
    m / 262144 % 8 < n / 262144 % 8 ∨ m / 262144 % 8 = n / 262144 % 8 ∧
      (m / 4096 % 64 < n / 4096 % 64 ∨ m / 4096 % 64 = n / 4096 % 64 ∧
        (m / 64 % 64 < n / 64 % 64 ∨ m / 64 % 64 = n / 64 % 64 ∧ m % 64 < n % 64)) := by
  by_cases first : m / 262144 = n / 262144
  · by_cases second : m / 4096 = n / 4096
    · exact .inr ⟨by omega, .inr ⟨by omega, by omega⟩⟩
    · exact .inr ⟨by omega, .inl (by omega)⟩
  · exact .inl (by omega)

/-- The bytes of a smaller character come first, whatever follows. -/
theorem utf8EncodeChar_append_lt {c d : Char} (less : c < d) (as bs : List UInt8) :
    String.utf8EncodeChar c ++ as < String.utf8EncodeChar d ++ bs := by
  have less : c.val.toNat < d.val.toNat := less
  have small : d.val.toNat < 0x110000 := by
    have valid := d.valid
    simp only [UInt32.isValidChar, Nat.isValidChar] at valid
    omega
  have digits := digits_lt less (by omega)
  have byte : ∀ {k : Nat}, k < 256 → k % 2 ^ 8 = k := Nat.mod_eq_of_lt
  simp only [String.utf8EncodeChar]
  generalize c.val.toNat = m at less digits
  generalize d.val.toNat = n at less small digits
  -- Lengths that differ are told by the first byte, and equal ones by the digits that the bytes hold.
  split_ifs <;> simp (disch := omega) only [List.cons_append, List.nil_append, List.cons_lt_cons_iff,
    UInt8.lt_iff_toNat_lt, ← UInt8.toNat_inj, UInt8.toNat_ofNat', byte] <;> omega

/-- The bytes of a smaller text come first. -/
theorem utf8_lt_of_lt {as bs : List Char} (less : as < bs) : utf8 as < utf8 bs := by
  induction as generalizing bs with
  | nil =>
    cases bs with
    | nil => exact absurd less (List.lt_irrefl _)
    | cons b bs =>
      obtain ⟨first, rest, bytes⟩ := List.exists_cons_of_ne_nil (@String.utf8EncodeChar_ne_nil b)
      simp [utf8, bytes]
  | cons a as ih =>
    cases bs with
    | nil => exact absurd less (List.not_lt_nil _)
    | cons b bs =>
      simp only [utf8, List.flatMap_cons] at ih ⊢
      rcases List.cons_lt_cons_iff.1 less with first | ⟨rfl, rest⟩
      · exact utf8EncodeChar_append_lt first _ _
      · exact List.append_left_lt (ih rest)

/-- Texts are in the order of their bytes. -/
theorem utf8_lt_iff {a b : String} : utf8 a.toList < utf8 b.toList ↔ a < b := by
  constructor
  · intro less
    rcases Std.lt_trichotomy a b with before | same | behind
    · exact before
    · exact absurd less (same ▸ List.lt_irrefl _)
    · exact absurd (utf8_lt_of_lt behind) (List.lt_asymm less)
  · exact utf8_lt_of_lt

end ProxyForge.Text
