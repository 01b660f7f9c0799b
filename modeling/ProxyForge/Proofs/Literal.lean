import ProxyForge.Checksum
import ProxyForge.Literal
import ProxyForge.Proofs.Hex

/-!
# Literals are read as what they were written for

A word is written as a decimal number, an address as digits behind `0x`, with or without a checksum in their case; each
of these literals is read as the word or the address. They are made of letters and digits alone, so they hold no
blank, comma, bracket or line break.
-/

namespace ProxyForge

/-! ## Reading in steps -/

theorem bind_eq_ok_iff {ε α β : Type} {read : Except ε α} {next : α → Except ε β} {b : β} :
    (read >>= next) = .ok b ↔ ∃ a, read = .ok a ∧ next a = .ok b := by
  cases read <;> simp [bind, Except.bind]

theorem bind_eq_error_iff {ε α β : Type} {read : Except ε α} {next : α → Except ε β} {fault : ε} :
    (read >>= next) = .error fault ↔ read = .error fault ∨ ∃ a, read = .ok a ∧ next a = .error fault := by
  cases read <;> simp [bind, Except.bind]

theorem map_eq_ok_iff {ε α β : Type} {read : Except ε α} {f : α → β} {b : β} :
    read.map f = .ok b ↔ ∃ a, read = .ok a ∧ f a = b := by
  cases read <;> simp [Except.map]

/-! ## Letters and digits -/

theorem isAlphanum_iff {c : Char} : c.isAlphanum = true ↔ (65 ≤ c.toNat ∧ c.toNat ≤ 90) ∨
    (97 ≤ c.toNat ∧ c.toNat ≤ 122) ∨ (48 ≤ c.toNat ∧ c.toNat ≤ 57) := by
  have ranges : c.isAlphanum = (decide (65 ≤ c.val ∧ c.val ≤ 90) || (decide (97 ≤ c.val) && decide (c.val ≤ 122)) ||
      (decide (48 ≤ c.val) && decide (c.val ≤ 57))) := rfl
  simp only [ranges, Bool.or_eq_true, Bool.and_eq_true, decide_eq_true_eq, UInt32.le_iff_toNat_le, or_assoc]
  exact Iff.rfl

theorem Text.isBlank_of_isAlphanum {c : Char} (h : c.isAlphanum = true) : isBlank c = false := by
  have range := isAlphanum_iff.1 h
  simp only [isBlank, Bool.or_eq_false_iff, Bool.and_eq_false_iff, decide_eq_false_iff_not, beq_eq_false_iff_ne]
  omega

theorem Text.trim_of_forall {cs : List Char} (h : ∀ c ∈ cs, isBlank c = false) : trim cs = cs := by
  have start : cs.dropWhile isBlank = cs := by
    cases cs with
    | nil => rfl
    | cons c cs => rw [List.dropWhile_cons_of_neg (by simp [h c (by simp)])]
  have rear : cs.reverse.dropWhile isBlank = cs.reverse := by
    cases hr : cs.reverse with
    | nil => rfl
    | cons c rest =>
      have mem : c ∈ cs := by
        rw [← List.mem_reverse, hr]
        exact List.mem_cons_self
      rw [List.dropWhile_cons_of_neg (by simp [h c mem])]
  rw [trim, trimStart, start, trimEnd, dropEndWhile, rear, List.reverse_reverse]

/-- There is nothing to trim of letters and digits behind `0x`. -/
theorem Text.trim_marked {cs : List Char} (h : ∀ c ∈ cs, c.isAlphanum = true) :
    trim ('0' :: 'x' :: cs) = '0' :: 'x' :: cs := by
  refine trim_of_forall fun c hc => isBlank_of_isAlphanum ?_
  rcases List.mem_cons.1 hc with rfl | hc
  · rfl
  rcases List.mem_cons.1 hc with rfl | hc
  · rfl
  exact h c hc

theorem Hex.isAlphanum_of_value? {c : Char} {v : Nat} (h : value? c = some v) : c.isAlphanum = true := by
  have range := value?_eq_some_iff_range.1 h
  exact isAlphanum_iff.2 (by omega)

/-- A character whose lower-case form is a digit of bytes. -/
theorem Hex.isAlphanum_of_toLower {c : Char} {bs : List UInt8} (h : c.toLower ∈ encode bs) : c.isAlphanum = true := by
  obtain ⟨v, hv⟩ := exists_value?_iff.2 (.inl (isLowerDigit_of_mem_encode h))
  exact isAlphanum_of_value? ((value?_toLower c).symm.trans hv)

theorem Hex.isAlphanum_of_mem_encode {c : Char} {bs : List UInt8} (h : c ∈ encode bs) : c.isAlphanum = true := by
  obtain ⟨v, hv⟩ := exists_value?_iff.2 (.inl (isLowerDigit_of_mem_encode h))
  exact isAlphanum_of_value? hv

/-! ## Decimal numbers -/

namespace Literal

theorem le_ofDigitChars (value : Nat) (cs : List Char) : value ≤ Nat.ofDigitChars 10 cs value := by
  rw [Nat.ofDigitChars_eq_ofDigitChars_zero]
  have pos : 0 < 10 ^ cs.length := Nat.pow_pos (by omega)
  have le := Nat.le_mul_of_pos_left value pos
  omega

/-- Digits are read as their number, unless it leaves 256 bits. -/
theorem decimal_of_isDigit {cs : List Char} {value : Nat} (digits : ∀ c ∈ cs, c.isDigit = true)
    (small : Nat.ofDigitChars 10 cs value < Nat.pow 2 256) : decimal value cs = .ok (Nat.ofDigitChars 10 cs value) := by
  induction cs generalizing value with
  | nil => rfl
  | cons c cs ih =>
    rw [Nat.ofDigitChars_cons, Nat.mul_comm] at small ⊢
    have bound : value * 10 + (c.toNat - 48) < Nat.pow 2 256 := Nat.lt_of_le_of_lt (le_ofDigitChars _ _) small
    rw [decimal, if_pos (digits c (by simp)), if_pos bound]
    exact ih (fun d hd => digits d (by simp [hd])) small

/-- A text without a mark and without a sign is read as a decimal number. -/
theorem integer_of_ne {cs : List Char} (unmarked : ∀ ds, cs ≠ '0' :: 'x' :: ds) (unsigned : ∀ ds, cs ≠ '-' :: ds) :
    integer cs = decimal 0 cs := by
  unfold integer
  split
  · exact absurd rfl (unmarked _)
  · exact absurd rfl (unsigned _)
  · rfl

theorem integer_of_isDigit {cs : List Char} (digits : ∀ c ∈ cs, c.isDigit = true) : integer cs = decimal 0 cs := by
  refine integer_of_ne ?_ ?_
  · rintro ds rfl
    exact absurd (digits 'x' (by simp)) (by decide)
  · rintro ds rfl
    exact absurd (digits '-' (by simp)) (by decide)

theorem isDigit_of_mem_toString {n : Nat} {c : Char} (h : c ∈ (toString n).toList) : c.isDigit = true := by
  rw [Nat.toString_eq_ofList_toDigits, String.toList_ofList] at h
  exact Nat.isDigit_of_mem_toDigits (by decide) (by decide) h

theorem isAlphanum_of_mem_toString {n : Nat} {c : Char} (h : c ∈ (toString n).toList) : c.isAlphanum = true := by
  rw [Char.isAlphanum, isDigit_of_mem_toString h, Bool.or_true]

/-- A number below 256 bits is read back. -/
theorem decimal_toString {n : Nat} (small : n < Nat.pow 2 256) : decimal 0 (toString n).toList = .ok n := by
  have number : Nat.ofDigitChars 10 (toString n).toList 0 = n := by
    rw [Nat.toString_eq_ofList_toDigits, String.toList_ofList, Nat.ofDigitChars_ten_toDigits]
  rw [decimal_of_isDigit (fun _ => isDigit_of_mem_toString) (by rwa [number]), number]

end Literal

theorem Word.isAlphanum_decimal {w : Word} {c : Char} (h : c ∈ w.decimal.toList) : c.isAlphanum = true :=
  Literal.isAlphanum_of_mem_toString h

/-- The decimal number of a word is read as the word. -/
theorem Word.ofLiteral_decimal (w : Word) : Word.ofLiteral w.decimal = .ok w := by
  have trimmed : Text.trim w.decimal.toList = w.decimal.toList :=
    Text.trim_of_forall fun c hc => Text.isBlank_of_isAlphanum (isAlphanum_decimal hc)
  have value : Literal.integer w.decimal.toList = .ok w.toNat := by
    rw [decimal, Literal.integer_of_isDigit fun _ => Literal.isDigit_of_mem_toString, Literal.decimal_toString w.isLt]
  rw [Word.ofLiteral, trimmed, value]
  simp

/-! ## Hexadecimal numbers -/

/-- The number of the half bytes of a byte string is its big-endian number. -/
theorem foldl_halves (bs : List UInt8) (value : Nat) :
    (bs.flatMap fun b => [b.toNat / 16, b.toNat % 16]).foldl (fun v d => v * 16 + d) value =
      bs.foldl (fun v b => v * 256 + b.toNat) value := by
  induction bs generalizing value with
  | nil => rfl
  | cons b bs ih =>
    have step : (value * 16 + b.toNat / 16) * 16 + b.toNat % 16 = value * 256 + b.toNat := by omega
    simp only [List.flatMap_cons, List.foldl_append, List.foldl_cons, List.foldl_nil, step, ih]

namespace Literal

theorem withoutMark_mark (cs : List Char) : withoutMark ('0' :: 'x' :: cs) = cs := rfl

theorem withoutMark_of_ne {cs : List Char} (unmarked : ∀ ds, cs ≠ '0' :: 'x' :: ds) : withoutMark cs = cs := by
  unfold withoutMark
  split
  · exact absurd rfl (unmarked _)
  · rfl

/-- Digits of bytes, in whatever case, do not begin with a mark, since `x` is no digit. -/
theorem withoutMark_of_toLower {cs : List Char} {bs : List UInt8} (h : cs.map Char.toLower = Hex.encode bs) :
    withoutMark cs = cs := by
  refine withoutMark_of_ne ?_
  rintro ds rfl
  have mem : 'x'.toLower ∈ Hex.encode bs := by
    rw [← h]
    exact List.mem_map_of_mem (by simp)
  exact absurd (Hex.isLowerDigit_of_mem_encode mem) (by decide)

/-- The digits of one to 32 bytes behind `0x` are read as their big-endian number. -/
theorem integer_encode {bs : List UInt8} (nonempty : bs ≠ []) (short : bs.length ≤ 32) :
    integer ('0' :: 'x' :: Hex.encode bs) = .ok (ofBigEndian bs) := by
  have some : (Hex.encode bs).isEmpty = false := by
    cases bs with
    | nil => exact absurd rfl nonempty
    | cons b bs => rfl
  have length := Hex.utf8Length_encode bs
  rw [integer, some, withoutMark_of_toLower (Hex.decode_eq_ok_iff.1 (Hex.decode_encode bs)), hexadecimal, length,
    Hex.values_encode]
  simp only [Bool.false_eq_true, if_false, foldl_halves]
  rw [if_neg (by omega)]
  rfl

end Literal

theorem Address.toList_hex (a : Address) : a.hex.toList = Hex.encode a.bytes := String.toList_ofList

theorem Address.toList_mark_hex (a : Address) : ("0x" ++ a.hex).toList = '0' :: 'x' :: Hex.encode a.bytes := by
  simp [toList_hex]

theorem Word.toList_hex (w : Word) : w.hex.toList = Hex.encode w.bytes := String.toList_ofList

theorem Address.isAlphanum_hex {a : Address} {c : Char} (h : c ∈ a.hex.toList) : c.isAlphanum = true :=
  Hex.isAlphanum_of_mem_encode (toList_hex a ▸ h)

theorem Word.isAlphanum_hex {w : Word} {c : Char} (h : c ∈ w.hex.toList) : c.isAlphanum = true :=
  Hex.isAlphanum_of_mem_encode (toList_hex w ▸ h)

theorem Address.ofBigEndian_bytes (a : Address) : ofBigEndian a.bytes = a.toNat := by
  rw [bytes, ofBigEndian_bigEndian]
  exact Nat.mod_eq_of_lt a.isLt

theorem Word.ofBigEndian_bytes (w : Word) : ofBigEndian w.bytes = w.toNat := by
  rw [bytes, ofBigEndian_bigEndian]
  exact Nat.mod_eq_of_lt w.isLt

theorem Word.toList_mark_hex (w : Word) : ("0x" ++ w.hex).toList = '0' :: 'x' :: Hex.encode w.bytes := by
  simp [toList_hex]

/-- The digits of one to 32 bytes behind `0x` are read as the word of the bytes. -/
theorem Word.ofLiteral_encode {literal : String} {bs : List UInt8} (digits : literal.toList = '0' :: 'x' :: Hex.encode bs)
    (nonempty : bs ≠ []) (short : bs.length ≤ 32) : Word.ofLiteral literal = .ok (ofBytes bs) := by
  have trimmed : Text.trim ('0' :: 'x' :: Hex.encode bs) = '0' :: 'x' :: Hex.encode bs :=
    Text.trim_marked fun _ => Hex.isAlphanum_of_mem_encode
  rw [Word.ofLiteral, digits, trimmed, Literal.integer_encode nonempty short, ofBytes]

/-- The digits of an address behind `0x` are read as the word that holds it. -/
theorem Word.ofLiteral_hex (a : Address) : Word.ofLiteral ("0x" ++ a.hex) = .ok a.toWord := by
  have length := Address.length_bytes a
  have nonempty : a.bytes ≠ [] := List.ne_nil_of_length_pos (by omega)
  rw [Word.ofLiteral_encode (Address.toList_mark_hex a) nonempty (by omega)]
  refine congrArg Except.ok (BitVec.eq_of_toNat_eq ?_)
  rw [ofBytes, Address.ofBigEndian_bytes, Address.toNat_toWord, BitVec.toNat_ofNat]
  have small := a.isLt
  exact Nat.mod_eq_of_lt (by omega)

/-- The digits of a word behind `0x` are read as the word. -/
theorem Word.ofLiteral_mark_hex (w : Word) : Word.ofLiteral ("0x" ++ w.hex) = .ok w := by
  have length := Word.length_bytes w
  have nonempty : w.bytes ≠ [] := List.ne_nil_of_length_pos (by omega)
  rw [Word.ofLiteral_encode (Word.toList_mark_hex w) nonempty (by omega), ofBytes_bytes]

/-! ## Addresses -/

/-- An address literal may be written in any case, with or without `0x` in front. -/
theorem Address.ofLiteral_of_toLower {literal : String} {a : Address}
    (h : (Literal.withoutMark literal.toList).map Char.toLower = Hex.encode a.bytes) :
    Address.ofLiteral literal = .ok a := by
  rw [Address.ofLiteral, Literal.address, Hex.decode_eq_ok_iff.2 h]
  simp only [length_bytes, if_true, ofBytes_bytes]

/-- The digits of an address behind `0x` are read as the address. -/
theorem Address.ofLiteral_hex (a : Address) : Address.ofLiteral ("0x" ++ a.hex) = .ok a := by
  refine ofLiteral_of_toLower ?_
  rw [Address.toList_mark_hex, Literal.withoutMark_mark]
  exact Hex.decode_eq_ok_iff.1 (Hex.decode_encode a.bytes)

theorem length_nibbles (bytes : List UInt8) : (nibbles bytes).length = 2 * bytes.length := by
  induction bytes with
  | nil => rfl
  | cons b bytes ih =>
    rw [nibbles] at ih ⊢
    simp only [List.flatMap_cons, List.length_append, List.length_cons, List.length_nil, ih]
    omega

/-- Marking a digit changes its case at most. -/
theorem Address.toLower_marked {c : Char} {bs : List UInt8} (h : c ∈ Hex.encode bs) (nibble : Nat) :
    (marked c nibble).toLower = c := by
  have table : ∀ n ∈ List.range 16,
      (Hex.digit n).toLower = Hex.digit n ∧ (Hex.digit n).toUpper.toLower = Hex.digit n := by decide
  obtain ⟨n, small, rfl⟩ := Hex.exists_digit_of_mem_encode h
  obtain ⟨lower, upper⟩ := table n (List.mem_range.2 small)
  unfold marked
  split
  · exact upper
  · exact lower

/-- Marking digits one by one, with half bytes enough for all of them, leaves the digits in lower case. -/
theorem Address.map_toLower_zipWith_marked {bs : List UInt8} {cs : List Char} (h : ∀ c ∈ cs, c ∈ Hex.encode bs)
    {nibbles : List Nat} (enough : cs.length ≤ nibbles.length) :
    (List.zipWith marked cs nibbles).map Char.toLower = cs := by
  induction cs generalizing nibbles with
  | nil => rfl
  | cons c cs ih =>
    cases nibbles with
    | nil => simp at enough
    | cons n nibbles =>
      have tail := ih (fun d hd => h d (by simp [hd])) (by simpa using enough)
      rw [List.zipWith_cons_cons, List.map_cons, toLower_marked (h c (by simp)), tail]

/-- A checksum lies in the case of the digits only. -/
theorem Address.map_toLower_checksumDigits (a : Address) : a.checksumDigits.map Char.toLower = Hex.encode a.bytes := by
  unfold checksumDigits
  refine map_toLower_zipWith_marked (fun _ hc => hc) ?_
  rw [length_nibbles, Keccak.length_digest, Hex.length_encode, length_bytes]
  omega

theorem Address.toList_checksummed (a : Address) : a.checksummed.toList = '0' :: 'x' :: a.checksumDigits := by
  simp [checksummed]

theorem Address.isAlphanum_checksumDigits {a : Address} {c : Char} (h : c ∈ a.checksumDigits) :
    c.isAlphanum = true := by
  have lower : c.toLower ∈ a.checksumDigits.map Char.toLower := List.mem_map_of_mem h
  rw [map_toLower_checksumDigits] at lower
  exact Hex.isAlphanum_of_toLower lower

theorem Address.isAlphanum_checksummed {a : Address} {c : Char} (h : c ∈ a.checksummed.toList) :
    c.isAlphanum = true := by
  rw [toList_checksummed] at h
  rcases List.mem_cons.1 h with rfl | h
  · rfl
  rcases List.mem_cons.1 h with rfl | h
  · rfl
  exact isAlphanum_checksumDigits h

/-- The only letters of a checksummed literal are digits and its `x`. -/
theorem Address.not_mem_checksummed {c : Char} (noDigit : ¬ Hex.IsLowerDigit c.toLower) (noMark : c ∉ ['0', 'x'])
    (a : Address) : c ∉ a.checksummed.toList := by
  intro h
  rw [toList_checksummed] at h
  simp only [List.mem_cons, List.not_mem_nil, or_false, not_or] at h noMark
  rcases h with h | h | h
  · exact noMark.1 h
  · exact noMark.2 h
  · have lower : c.toLower ∈ a.checksumDigits.map Char.toLower := List.mem_map_of_mem h
    rw [map_toLower_checksumDigits] at lower
    exact noDigit (Hex.isLowerDigit_of_mem_encode lower)

/-- The checksummed literal of an address is read as the address. -/
theorem Address.ofLiteral_checksummed (a : Address) : Address.ofLiteral a.checksummed = .ok a := by
  refine ofLiteral_of_toLower ?_
  rw [toList_checksummed, Literal.withoutMark_mark]
  exact map_toLower_checksumDigits a

end ProxyForge
