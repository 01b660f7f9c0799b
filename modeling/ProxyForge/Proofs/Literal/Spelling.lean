import Mathlib.Data.List.TakeWhile
import ProxyForge.Contract.Source
import ProxyForge.Proofs.Literal.Integer
import ProxyForge.Proofs.Storage.Encodings

/-!
# Integer literals in other spellings

The case of hexadecimal digits says nothing (`lowered` takes it off), and neither do blanks around a literal. Both hold
of every text, one that is no literal included: a reader sees the same digits and the same first fault
(`integer_map_lowered`, `trim_between_blanks`). So the literals of a source text are read as what they were written for,
and so is every other spelling of them (`literals_read`).
-/

namespace ProxyForge

/-! ## The case of digits -/

namespace Hex

/-- A character, in lower case if it is a hexadecimal digit. -/
def lowered (c : Char) : Char :=
  if isDigit c then c.toLower else c

theorem lowered_of_isDigit_eq_false {c : Char} (h : isDigit c = false) : lowered c = c := by
  rw [lowered, h]
  rfl

theorem toNat_lowered (c : Char) :
    (lowered c).toNat = if 65 ≤ c.toNat ∧ c.toNat ≤ 70 then c.toNat + 32 else c.toNat := by
  cases digit : isDigit c with
  | true =>
    obtain ⟨v, worth⟩ := isDigit_iff.1 digit
    have range := value?_eq_some_iff_range.1 worth
    rw [lowered, digit, if_pos rfl, toNat_toLower]
    split <;> split <;> omega
  | false =>
    rw [lowered_of_isDigit_eq_false digit, if_neg]
    intro range
    have worth : value? c = some (c.toNat - 55) := value?_eq_some_iff_range.2 (by omega)
    rw [isDigit, worth] at digit
    cases digit

/-- A character that is no letter of a digit is the lower-case form of itself alone. -/
theorem lowered_eq_iff {c d : Char} (h : d.toNat < 65 ∨ 102 < d.toNat) : lowered c = d ↔ c = d := by
  rw [← Char.toNat_inj, ← Char.toNat_inj, toNat_lowered]
  split <;> omega

theorem value?_lowered (c : Char) : value? (lowered c) = value? c := by
  rw [lowered]
  split
  · exact value?_toLower c
  · rfl

theorem utf8Size_lowered (c : Char) : (lowered c).utf8Size = c.utf8Size := by
  cases digit : isDigit c with
  | false => rw [lowered_of_isDigit_eq_false digit]
  | true =>
    obtain ⟨v, worth⟩ := isDigit_iff.1 digit
    rw [utf8Size_of_value? worth, utf8Size_of_value? ((value?_lowered c).trans worth)]

theorem utf8Length_map_lowered (cs : List Char) : Text.utf8Length (cs.map lowered) = Text.utf8Length cs := by
  induction cs with
  | nil => rfl
  | cons c cs ih => rw [List.map_cons, Text.utf8Length, Text.utf8Length, utf8Size_lowered, ih]

/-- The values of digits and the first character that is none are the same in either case. -/
theorem values_map_lowered (position : Nat) (cs : List Char) : values position (cs.map lowered) = values position cs := by
  induction cs generalizing position with
  | nil => rfl
  | cons c cs ih =>
    rw [List.map_cons, values, values, value?_lowered, ih]
    cases worth : value? c with
    | none =>
      have noDigit : isDigit c = false := by rw [isDigit, worth, Option.isSome_none]
      rw [lowered_of_isDigit_eq_false noDigit]
    | some v => rfl

end Hex

namespace Literal

open Hex (lowered)

theorem isDigit_iff_range {c : Char} : c.isDigit = true ↔ 48 ≤ c.toNat ∧ c.toNat ≤ 57 :=
  Char.isDigit_iff_toNat

theorem isDigit_lowered (c : Char) : (lowered c).isDigit = c.isDigit := by
  rw [Bool.eq_iff_iff, isDigit_iff_range, isDigit_iff_range, Hex.toNat_lowered]
  split <;> omega

theorem lowered_of_isDigit {c : Char} (h : c.isDigit = true) : lowered c = c := by
  have range := isDigit_iff_range.1 h
  exact (Hex.lowered_eq_iff (by omega)).2 rfl

theorem decimal_map_lowered (value : Nat) (cs : List Char) : decimal value (cs.map lowered) = decimal value cs := by
  induction cs generalizing value with
  | nil => rfl
  | cons c cs ih =>
    rw [List.map_cons, decimal, decimal, isDigit_lowered]
    split
    · rename_i digit
      simp only [lowered_of_isDigit digit, ih]
    · rfl

theorem hexadecimal_map_lowered (cs : List Char) : hexadecimal (cs.map lowered) = hexadecimal cs := by
  rw [hexadecimal, hexadecimal, Hex.utf8Length_map_lowered, Hex.values_map_lowered]

/-- Lower case makes no mark. -/
theorem map_lowered_ne_mark {cs : List Char} (unmarked : ∀ ds, cs ≠ '0' :: 'x' :: ds) (ds : List Char) :
    cs.map lowered ≠ '0' :: 'x' :: ds := by
  intro h
  obtain ⟨zero, rest, rfl, first, h⟩ := List.map_eq_cons_iff.1 h
  obtain ⟨mark, digits, rfl, second, -⟩ := List.map_eq_cons_iff.1 h
  rw [Hex.lowered_eq_iff (by decide)] at first second
  exact unmarked digits (by rw [first, second])

/-- Lower case makes no sign. -/
theorem map_lowered_ne_sign {cs : List Char} (unsigned : ∀ ds, cs ≠ '-' :: ds) (ds : List Char) :
    cs.map lowered ≠ '-' :: ds := by
  intro h
  obtain ⟨sign, rest, rfl, first, -⟩ := List.map_eq_cons_iff.1 h
  rw [Hex.lowered_eq_iff (by decide)] at first
  exact unsigned rest (by rw [first])

theorem withoutMark_map_lowered (cs : List Char) : withoutMark (cs.map lowered) = (withoutMark cs).map lowered := by
  by_cases marked : ∃ ds, cs = '0' :: 'x' :: ds
  · obtain ⟨ds, rfl⟩ := marked
    rfl
  · have unmarked : ∀ ds, cs ≠ '0' :: 'x' :: ds := fun ds h => marked ⟨ds, h⟩
    rw [withoutMark_of_ne unmarked, withoutMark_of_ne (map_lowered_ne_mark unmarked)]

/-- A text is read as the same number in either case of its digits, or refused for the same fault. -/
theorem integer_map_lowered (cs : List Char) : integer (cs.map lowered) = integer cs := by
  -- With a mark, with a sign or with neither, the lower-case text is read in the same one of the three ways.
  by_cases marked : ∃ ds, cs = '0' :: 'x' :: ds
  · obtain ⟨ds, rfl⟩ := marked
    show integer ('0' :: 'x' :: ds.map lowered) = integer ('0' :: 'x' :: ds)
    rw [integer, integer, withoutMark_map_lowered, hexadecimal_map_lowered, List.isEmpty_map]
  by_cases signed : ∃ ds, cs = '-' :: ds
  · obtain ⟨ds, rfl⟩ := signed
    rfl
  have unmarked : ∀ ds, cs ≠ '0' :: 'x' :: ds := fun ds h => marked ⟨ds, h⟩
  have unsigned : ∀ ds, cs ≠ '-' :: ds := fun ds h => signed ⟨ds, h⟩
  rw [integer_of_ne unmarked unsigned, integer_of_ne (map_lowered_ne_mark unmarked) (map_lowered_ne_sign unsigned),
    decimal_map_lowered]

end Literal

/-! ## Blanks around a text -/

namespace Text

theorem isBlank_lowered (c : Char) : isBlank (Hex.lowered c) = isBlank c := by
  cases digit : Hex.isDigit c with
  | false => rw [Hex.lowered_of_isDigit_eq_false digit]
  | true =>
    obtain ⟨v, worth⟩ := Hex.isDigit_iff.1 digit
    rw [isBlank_of_isAlphanum (Hex.isAlphanum_of_value? worth),
      isBlank_of_isAlphanum (Hex.isAlphanum_of_value? ((Hex.value?_lowered c).trans worth))]

theorem trim_map_lowered (cs : List Char) : trim (cs.map Hex.lowered) = (trim cs).map Hex.lowered := by
  have blanks : isBlank ∘ Hex.lowered = isBlank := funext isBlank_lowered
  rw [trim, trim, trimEnd, trimEnd, trimStart, trimStart, dropEndWhile, dropEndWhile, List.dropWhile_map, blanks,
    ← List.map_reverse, List.dropWhile_map, blanks, List.map_reverse]

/-- Blanks around a text are trimmed with those at its ends. -/
theorem trim_between_blanks {front rear : List Char} (hfront : ∀ c ∈ front, isBlank c = true)
    (hrear : ∀ c ∈ rear, isBlank c = true) (cs : List Char) : trim (front ++ cs ++ rear) = trim cs := by
  rw [trim, trim, trimStart, trimStart, List.append_assoc, List.dropWhile_append_of_pos hfront, List.dropWhile_append]
  split
  · rename_i all
    rw [List.isEmpty_iff.1 all, List.dropWhile_eq_nil_iff.2 hrear]
  · exact dropEndWhile_append_of_forall _ hrear

end Text

/-! ## Spellings -/

theorem Word.ofLiteral_between_blanks {front rear : List Char} (hfront : ∀ c ∈ front, Text.isBlank c = true)
    (hrear : ∀ c ∈ rear, Text.isBlank c = true) (cs : List Char) :
    Word.ofLiteral (String.ofList (front ++ cs ++ rear)) = Word.ofLiteral (String.ofList cs) := by
  rw [ofLiteral, ofLiteral, String.toList_ofList, String.toList_ofList, Text.trim_between_blanks hfront hrear]

/-- Two texts that differ in the case of hexadecimal digits at most are read as the same word, if any. -/
theorem Word.ofLiteral_eq_ok_iff_of_lowered {text literal : String}
    (same : text.toList.map Hex.lowered = literal.toList.map Hex.lowered) (w : Word) :
    Word.ofLiteral text = .ok w ↔ Word.ofLiteral literal = .ok w := by
  rw [ofLiteral_eq_ok_iff, ofLiteral_eq_ok_iff, ← Literal.integer_map_lowered, ← Text.trim_map_lowered, same,
    Text.trim_map_lowered, Literal.integer_map_lowered]

/-- The number of a word in decimal is read as the word. -/
theorem Word.ofLiteral_toString {n : Nat} (small : n < 2 ^ 256) :
    Word.ofLiteral (toString n) = .ok (BitVec.ofNat 256 n) := by
  have read := Word.ofLiteral_decimal (BitVec.ofNat 256 n)
  rwa [decimal, BitVec.toNat_ofNat, Nat.mod_eq_of_lt small] at read

namespace Contract

/-- The literals of a source text are read as what they were written for: stored values, slots, addresses and reserves
of gas. A stored address is also read as the word of its bytes behind zeros, and a slot as the big-endian number of its
bytes. Blanks around an integer literal and the case of its hexadecimal digits do not change what is read. -/
theorem literals_read :
    (∀ value : Word, Word.ofLiteral (Operand.integer value).literal = .ok value) ∧
    (∀ account : Address,
      Word.ofLiteral (Operand.address account).literal = .ok account.toWord ∧
      account.toWord.toNat = ofBigEndian (List.replicate 12 0 ++ account.bytes) ∧
      Address.ofLiteral (Operand.address account).literal = .ok account ∧
      Address.ofLiteral account.checksummed = .ok account) ∧
    (∀ slot : Word, ∃ value : Word, Word.ofLiteral ("0x" ++ slot.hex) = .ok value ∧
      value.toNat = ofBigEndian slot.bytes ∧ value.bytes = slot.bytes) ∧
    (∀ gasReserve : UInt64, Word.ofLiteral (toString gasReserve.toNat) = .ok (BitVec.ofNat 256 gasReserve.toNat)) ∧
    (∀ (literal : String) (front text rear : List Char), (∀ c ∈ front, Text.isBlank c = true) →
      (∀ c ∈ rear, Text.isBlank c = true) → text.map Hex.lowered = literal.toList.map Hex.lowered →
      ∀ w, Word.ofLiteral (String.ofList (front ++ text ++ rear)) = .ok w ↔ Word.ofLiteral literal = .ok w) := by
  refine ⟨Word.ofLiteral_decimal, fun account => ?_, fun slot => ?_, fun gasReserve => ?_, ?_⟩
  · have number : account.toWord.toNat = ofBigEndian (List.replicate 12 0 ++ account.bytes) := by
      rw [← Address.bytes_toWord, Word.ofBigEndian_bytes]
    exact ⟨Word.ofLiteral_hex account, number, Address.ofLiteral_hex account, Address.ofLiteral_checksummed account⟩
  · exact ⟨slot, Word.ofLiteral_mark_hex slot, slot.ofBigEndian_bytes.symm, rfl⟩
  · have small := gasReserve.toNat_lt
    exact Word.ofLiteral_toString (by omega)
  · intro literal front text rear hfront hrear same w
    rw [Word.ofLiteral_between_blanks hfront hrear]
    exact Word.ofLiteral_eq_ok_iff_of_lowered (by rw [String.toList_ofList, same]) w

/-- The literal of an address between blanks, with capitals for its letters. -/
theorem literals_read_capitals :
    Word.ofLiteral (String.ofList
      ([' ', '\t'] ++ "0x00000000000000000000000000000000000000AB".toList ++ ['\u3000'])) = .ok (0xab : Address).toWord :=
  (literals_read.2.2.2.2 (Operand.address 0xab).literal [' ', '\t'] _ ['\u3000'] (List.all_eq_true.1 rfl)
    (List.all_eq_true.1 rfl) (by decide) _).2 (Word.ofLiteral_hex 0xab)

end Contract

end ProxyForge
