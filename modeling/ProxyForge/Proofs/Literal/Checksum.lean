import ProxyForge.Proofs.Literal
import ProxyForge.Proofs.Storage.Encodings

/-!
# Spellings of an address and their checksum

An address literal is the forty digits of the address, in any mix of cases and with or without `0x` in front; no other
text is read as the address (`ofLiteral_eq_ok_iff`). The rule of the checksum fixes the case of every letter by the digit
at the same place of a digest (`Checksummed`). Digits are told by their places here (`digitAt`): the half bytes of a
byte string are the digits of its number, each at its place (`getElem?_nibbles`). So the rule leaves one spelling of
each address (`checksummed_iff`).
-/

namespace ProxyForge

/-! ## Digits by their places -/

/-- The value of digit `i`, counted from the highest, of a number in `count` hexadecimal digits. -/
def digitAt (count v i : Nat) : Nat :=
  v / 16 ^ (count - 1 - i) % 16

theorem digitAt_lt (count v i : Nat) : digitAt count v i < 16 :=
  Nat.mod_lt _ (by decide)

theorem nibbles_append (as bs : List UInt8) : nibbles (as ++ bs) = nibbles as ++ nibbles bs :=
  List.flatMap_append

/-- The half bytes of a number are its digits, the highest first. -/
theorem nibbles_bigEndian (n v : Nat) :
    nibbles (bigEndian n v) = (List.range (2 * n)).map (digitAt (2 * n) v) := by
  induction n generalizing v with
  | zero => rfl
  | succ n ih =>
    -- The last byte holds two digits more; those in front of it are the digits of `v / 256`, two places higher.
    have high : (List.range (2 * n)).map (digitAt (2 * n) (v / 256)) =
        (List.range (2 * n)).map (digitAt (2 * (n + 1)) v) := by
      refine List.map_congr_left fun i hi => ?_
      have inside := List.mem_range.1 hi
      have place : 2 * (n + 1) - 1 - i = 2 + (2 * n - 1 - i) := by omega
      rw [digitAt, digitAt, place, Nat.pow_add, Nat.div_div_eq_div_mul]
    have last : nibbles [UInt8.ofNat (v % 256)] =
        [digitAt (2 * (n + 1)) v (2 * n), digitAt (2 * (n + 1)) v (2 * n + 1)] := by
      have byte : (UInt8.ofNat (v % 256)).toNat = v % 256 := by simp
      have places : 2 * (n + 1) - 1 - 2 * n = 1 ∧ 2 * (n + 1) - 1 - (2 * n + 1) = 0 := by omega
      simp only [nibbles, List.flatMap_cons, List.flatMap_nil, byte, digitAt, places]
      simp
      omega
    rw [bigEndian, nibbles_append, ih, high, last, show 2 * (n + 1) = 2 * n + 1 + 1 by omega, List.range_succ,
      List.range_succ]
    simp

theorem encode_eq_map_nibbles (bs : List UInt8) : Hex.encode bs = (nibbles bs).map Hex.digit := by
  induction bs with
  | nil => rfl
  | cons b bs ih =>
    rw [Hex.encode, ih]
    rfl

theorem getElem?_nibbles (bs : List UInt8) {i : Nat} (inside : i < 2 * bs.length) :
    (nibbles bs)[i]? = some (digitAt (2 * bs.length) (ofBigEndian bs) i) := by
  have places := nibbles_bigEndian bs.length (ofBigEndian bs)
  rw [bigEndian_ofBigEndian] at places
  rw [places, List.getElem?_map, List.getElem?_range inside, Option.map_some]

/-! ## Spellings of an address -/

namespace Address

/-- The forty digits of an address, in lower case. -/
def digits (a : Address) : List Char :=
  (List.range 40).map fun i => Hex.digit (digitAt 40 a.toNat i)

theorem encode_bytes (a : Address) : Hex.encode a.bytes = a.digits := by
  rw [encode_eq_map_nibbles, bytes, nibbles_bigEndian, List.map_map]
  rfl

theorem length_digits (a : Address) : a.digits.length = 40 := by
  simp [digits]

/-- The literals of an address: its digits in any mix of cases, with or without `0x` in front. -/
inductive Spells (a : Address) : List Char → Prop where
  | bare {cs : List Char} (same : cs.map Char.toLower = a.digits) : Spells a cs
  | marked {cs : List Char} (same : cs.map Char.toLower = a.digits) : Spells a ('0' :: 'x' :: cs)

end Address

theorem Literal.address_eq_ok_iff {cs : List Char} {a : Address} :
    Literal.address cs = .ok a ↔ cs.map Char.toLower = a.digits := by
  rw [← Address.encode_bytes, ← Hex.decode_eq_ok_iff, Literal.address]
  cases Hex.decode cs with
  | error fault => simp
  | ok bytes =>
    simp only [Except.ok.injEq]
    constructor
    · intro read
      split at read
      · rename_i length
        rw [← Except.ok.inj read, Address.bytes_ofBytes length]
      · cases read
    · intro same
      rw [same, if_pos a.length_bytes, Address.ofBytes_bytes]

namespace Address

theorem spells_iff {a : Address} {cs : List Char} :
    Spells a cs ↔ (Literal.withoutMark cs).map Char.toLower = a.digits := by
  constructor
  · rintro (same | same)
    · rw [Literal.withoutMark_of_toLower (same.trans a.encode_bytes.symm), same]
    · exact same
  · intro same
    unfold Literal.withoutMark at same
    split at same
    · exact .marked same
    · exact .bare same

theorem ofLiteral_eq_ok_iff {literal : String} {a : Address} :
    ofLiteral literal = .ok a ↔ Spells a literal.toList := by
  rw [spells_iff, ← Literal.address_eq_ok_iff, ofLiteral]
  cases Literal.address (Literal.withoutMark literal.toList) <;> simp

theorem exists_ofLiteral_error_iff {literal : String} :
    (∃ fault, ofLiteral literal = .error (.address literal fault)) ↔ ∀ a, ¬ Spells a literal.toList := by
  constructor
  · rintro ⟨fault, refused⟩ a spelled
    rw [ofLiteral_eq_ok_iff.2 spelled] at refused
    cases refused
  · intro unspelled
    rw [ofLiteral]
    cases read : Literal.address (Literal.withoutMark literal.toList) with
    | error fault => exact ⟨fault, rfl⟩
    | ok a => exact absurd (spells_iff.2 (Literal.address_eq_ok_iff.1 read)) (unspelled a)

end Address

/-! ## No conversion without a result -/

/-- The address of digits, by a conversion of bytes that may have no result. It is none if the conversion is reached
with a byte string that it has no result for. -/
def Literal.address? (cs : List Char) : Option (Except AddressFault Address) :=
  match Hex.decode cs with
  | .error fault => some (.error (.notHex fault))
  | .ok bytes =>
    if bytes.length = 20 then (Address.ofExactly? bytes).map .ok else some (.error (.length bytes.length))

theorem Literal.address?_eq (cs : List Char) : Literal.address? cs = some (Literal.address cs) := by
  rw [Literal.address?, Literal.address]
  cases Hex.decode cs with
  | error fault => rfl
  | ok bytes =>
    simp only
    split
    · rename_i length
      rw [Address.ofExactly?, if_pos length, Option.map_some]
    · rfl

/-- Reads an address literal by that conversion. -/
def Address.ofLiteral? (literal : String) : Option (Except EncodingFault Address) :=
  (Literal.address? (Literal.withoutMark literal.toList)).map fun read => read.mapError (.address literal)

/-- The length is checked before the conversion that needs it. -/
theorem Address.ofLiteral?_eq (literal : String) : ofLiteral? literal = some (ofLiteral literal) := by
  rw [ofLiteral?, Literal.address?_eq, Option.map_some, ofLiteral]
  cases Literal.address (Literal.withoutMark literal.toList) <;> rfl

/-! ## Checksums -/

namespace Address

/-- The digest of digits in lower case, as a number. -/
def checksum (cs : List Char) : Nat :=
  (Keccak.hash (cs.map fun c => c.toLower.toNat.toUInt8)).toNat

/-- The rule of the checksum: a letter is in upper case exactly if the digest of the lower-case digits has a digit of at
least eight at its place. -/
def Checksummed (cs : List Char) : Prop :=
  ∀ i c, cs[i]? = some c → c.isAlpha = true → (c.isUpper = true ↔ 8 ≤ digitAt 64 (checksum cs) i)

/-- A character whose lower-case form is a digit is that digit in one of its cases. -/
theorem eq_or_eq_toUpper {c : Char} {v : Nat} (small : v < 16) (lower : c.toLower = Hex.digit v) :
    c = Hex.digit v ∨ c = (Hex.digit v).toUpper := by
  have table : ∀ v ∈ List.range 16, (Hex.digit v).toUpper.toNat = if v < 10 then 48 + v else 55 + v := by decide
  have upper := table v (List.mem_range.2 small)
  have code := Hex.toNat_toLower c
  rw [lower, Hex.toNat_digit small] at code
  rw [← Char.toNat_inj, ← Char.toNat_inj, upper, Hex.toNat_digit small]
  by_cases numeral : v < 10
  · simp only [if_pos numeral] at code ⊢
    split at code <;> omega
  · simp only [if_neg numeral] at code ⊢
    split at code <;> omega

/-- What the rule asks of one character is that it is the marked digit. -/
theorem eq_marked_iff {c : Char} {v : Nat} (small : v < 16) (lower : c.toLower = Hex.digit v) (nibble : Nat) :
    c = marked (Hex.digit v) nibble ↔ (c.isAlpha = true → (c.isUpper = true ↔ 8 ≤ nibble)) := by
  have table : ∀ v ∈ List.range 16, (Hex.digit v).isUpper = false ∧
      (Hex.digit v).toUpper.isAlpha = (Hex.digit v).isAlpha ∧
      (Hex.digit v).toUpper.isUpper = (Hex.digit v).isAlpha ∧
      ((Hex.digit v).toUpper = Hex.digit v ↔ (Hex.digit v).isAlpha = false) := by decide
  obtain ⟨low, alpha, high, numeral⟩ := table v (List.mem_range.2 small)
  rw [marked]
  cases letter : (Hex.digit v).isAlpha with
  | false =>
    have single := numeral.2 letter
    have same : c = Hex.digit v := by
      rcases eq_or_eq_toUpper small lower with same | same
      · exact same
      · rw [same, single]
    simp [same, letter]
  | true =>
    have other : (Hex.digit v).toUpper ≠ Hex.digit v := fun same => by simp [numeral.1 same] at letter
    rcases eq_or_eq_toUpper small lower with rfl | rfl
    · by_cases great : 8 ≤ nibble <;> simp [low, letter, great, other.symm]
    · by_cases great : 8 ≤ nibble <;> simp [alpha, high, letter, great, other]

section Spelled

variable {a : Address} {cs : List Char} (same : cs.map Char.toLower = a.digits)
include same

theorem checksum_of_spelled :
    checksum cs = ofBigEndian (Keccak.digest ((Hex.encode a.bytes).map fun c => c.toNat.toUInt8)) := by
  have codes : (cs.map fun c => c.toLower.toNat.toUInt8) = (Hex.encode a.bytes).map fun c => c.toNat.toUInt8 := by
    rw [encode_bytes, ← same, List.map_map]
    rfl
  rw [checksum, codes, Keccak.hash, Word.toNat_ofBytes_of_length (Keccak.length_digest _)]

theorem length_of_spelled : cs.length = 40 := by
  rw [← List.length_map (f := Char.toLower), same, length_digits]

theorem toLower_of_spelled {i : Nat} {c : Char} (found : cs[i]? = some c) :
    i < 40 ∧ c.toLower = Hex.digit (digitAt 40 a.toNat i) := by
  have inside : i < 40 := length_of_spelled same ▸ (List.getElem?_eq_some_iff.1 found).1
  have lower : (cs.map Char.toLower)[i]? = some c.toLower := by rw [List.getElem?_map, found, Option.map_some]
  rw [same, digits, List.getElem?_map, List.getElem?_range inside, Option.map_some] at lower
  exact ⟨inside, (Option.some.inj lower).symm⟩

/-- At each place the checksummed digits have the digit of the address, marked by the digit of the digest there. -/
theorem getElem?_checksumDigits {i : Nat} (inside : i < 40) :
    a.checksumDigits[i]? = some (marked (Hex.digit (digitAt 40 a.toNat i)) (digitAt 64 (checksum cs) i)) := by
  have digit : (Hex.encode a.bytes)[i]? = some (Hex.digit (digitAt 40 a.toNat i)) := by
    rw [encode_bytes, digits, List.getElem?_map, List.getElem?_range inside, Option.map_some]
  have length := Keccak.length_digest ((Hex.encode a.bytes).map fun c => c.toNat.toUInt8)
  have nibble := getElem?_nibbles (Keccak.digest ((Hex.encode a.bytes).map fun c => c.toNat.toUInt8))
    (show i < 2 * _ by omega)
  rw [length, ← checksum_of_spelled same] at nibble
  simp only [checksumDigits, List.getElem?_zipWith, digit, nibble]

/-- Of the spellings of an address the checksummed digits alone keep the rule. -/
theorem checksummed_iff : Checksummed cs ↔ cs = a.checksumDigits := by
  constructor
  · intro rule
    have length : a.checksumDigits.length = 40 := length_of_spelled (a.map_toLower_checksumDigits.trans a.encode_bytes)
    -- The rule is about one place at a time, and so is the marking of the digits.
    refine List.ext_getElem? fun i => ?_
    cases found : cs[i]? with
    | none =>
      have outside := List.getElem?_eq_none_iff.1 found
      rw [length_of_spelled same] at outside
      rw [List.getElem?_eq_none (by omega)]
    | some c =>
      obtain ⟨inside, lower⟩ := toLower_of_spelled same found
      rw [getElem?_checksumDigits same inside, ← (eq_marked_iff (digitAt_lt _ _ _) lower _).2 (rule i c found)]
  · intro eq i c found
    obtain ⟨inside, lower⟩ := toLower_of_spelled same found
    have marked := getElem?_checksumDigits same inside
    rw [← eq, found] at marked
    exact (eq_marked_iff (digitAt_lt _ _ _) lower _).1 (Option.some.inj marked)

end Spelled

/-- An address literal is read as the address that it spells, and a text that spells none is refused as an address; the
conversion of its bytes is reached with twenty of them only. Of the spellings with `0x` in front one keeps the rule of
the checksum: the checksummed literal. -/
theorem ofLiteral_spellings (literal : String) :
    (∀ a, ofLiteral literal = .ok a ↔ Spells a literal.toList) ∧
    ((∃ fault, ofLiteral literal = .error (.address literal fault)) ↔ ∀ a, ¬ Spells a literal.toList) ∧
    ofLiteral? literal = some (ofLiteral literal) ∧
    (∀ a : Address, (∃ cs, literal.toList = '0' :: 'x' :: cs ∧ cs.map Char.toLower = a.digits ∧ Checksummed cs) ↔
      literal = a.checksummed) := by
  refine ⟨fun _ => ofLiteral_eq_ok_iff, exists_ofLiteral_error_iff, ofLiteral?_eq literal, fun a => ?_⟩
  constructor
  · rintro ⟨cs, marked, same, rule⟩
    rw [← String.toList_inj, marked, toList_checksummed, (checksummed_iff same).1 rule]
  · rintro rfl
    have same : a.checksumDigits.map Char.toLower = a.digits := a.map_toLower_checksumDigits.trans a.encode_bytes
    exact ⟨a.checksumDigits, a.toList_checksummed, same, (checksummed_iff same).2 rfl⟩

end Address

end ProxyForge
