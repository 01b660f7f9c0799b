import Mathlib.Algebra.Ring.Nat
import Mathlib.Data.List.Induction
import ProxyForge.Proofs.Literal
import ProxyForge.Storage

/-!
# Slots from bytes and from literals

The key and the base of a mapping may be given as they are, as bytes or as a literal, and the slot of the value is the
same (`mappingSlot_agrees`). Bytes are big-endian numbers, so zeros in front do not count: a number fits 32 bytes
exactly when no more than 32 of its bytes are significant (`length_significant_le_iff`). A conversion of bytes that is
made for byte strings of one length alone has no result for others (`Address.ofExactly?`, `Word.ofAtMost?`), and none
of them is reached with such a byte string.
-/

namespace ProxyForge

/-! ## Big-endian numbers -/

theorem ofBigEndian_append (as bs : List UInt8) :
    ofBigEndian (as ++ bs) = ofBigEndian as * 256 ^ bs.length + ofBigEndian bs := by
  induction bs using List.reverseRecOn with
  | nil => simp [ofBigEndian]
  | append_singleton bs b ih =>
    rw [← List.append_assoc, ofBigEndian_snoc, ih, ofBigEndian_snoc, List.length_append, List.length_singleton,
      Nat.pow_succ, Nat.add_mul, Nat.mul_assoc, Nat.add_assoc]

theorem ofBigEndian_cons (b : UInt8) (bs : List UInt8) :
    ofBigEndian (b :: bs) = b.toNat * 256 ^ bs.length + ofBigEndian bs := by
  have single : ofBigEndian [b] = b.toNat := by simp [ofBigEndian]
  rw [← List.singleton_append, ofBigEndian_append, single]

theorem ofBigEndian_lt (bs : List UInt8) : ofBigEndian bs < 256 ^ bs.length := by
  induction bs using List.reverseRecOn with
  | nil => decide
  | append_singleton bs b ih =>
    have byte := b.toNat_lt
    rw [ofBigEndian_snoc, List.length_append, List.length_singleton, Nat.pow_succ]
    omega

theorem ofBigEndian_replicate_append (zeros : Nat) (bs : List UInt8) :
    ofBigEndian (List.replicate zeros 0 ++ bs) = ofBigEndian bs := by
  induction zeros with
  | zero => rfl
  | succ zeros ih => simpa [List.replicate_succ, ofBigEndian_cons] using ih

theorem ofBigEndian_dropWhile (bs : List UInt8) : ofBigEndian (bs.dropWhile (· == 0)) = ofBigEndian bs := by
  induction bs with
  | nil => rfl
  | cons b bs ih =>
    by_cases zero : b = 0
    · subst zero
      rw [List.dropWhile_cons_of_pos (by rfl), ih, ofBigEndian_cons]
      simp
    · rw [List.dropWhile_cons_of_neg (by simpa using zero)]

/-- The bytes of a number that are read back are the bytes. -/
theorem bigEndian_ofBigEndian (bs : List UInt8) : bigEndian bs.length (ofBigEndian bs) = bs := by
  induction bs using List.reverseRecOn with
  | nil => rfl
  | append_singleton bs b ih =>
    have byte := b.toNat_lt
    have high : (ofBigEndian bs * 256 + b.toNat) / 256 = ofBigEndian bs := by omega
    have low : (ofBigEndian bs * 256 + b.toNat) % 256 = b.toNat := by omega
    rw [List.length_append, List.length_singleton, bigEndian, ofBigEndian_snoc, high, low, ih, UInt8.ofNat_toNat]

/-- Without the zeros in front a byte string is as long as its number needs. -/
theorem length_significant_le_iff (bs : List UInt8) (n : Nat) :
    (bs.dropWhile (· == 0)).length ≤ n ↔ ofBigEndian bs < 256 ^ n := by
  rw [← ofBigEndian_dropWhile bs]
  constructor
  · intro short
    exact Nat.lt_of_lt_of_le (ofBigEndian_lt _) (Nat.pow_le_pow_right (by decide) short)
  · intro less
    cases cut : bs.dropWhile (· == 0) with
    | nil => simp
    | cons b rest =>
      have first : b ≠ 0 := by
        have head := List.head_dropWhile_not (· == (0 : UInt8)) (by rw [cut]; simp)
        simpa [cut] using head
      have positive : 0 < b.toNat := by
        rw [Nat.pos_iff_ne_zero]
        exact fun zero => first (UInt8.toNat_inj.1 zero)
      -- The first byte is not zero, so the number is at least the power that this byte counts.
      by_contra long
      rw [cut, ofBigEndian_cons] at less
      have least : 256 ^ n ≤ 256 ^ rest.length := Nat.pow_le_pow_right (by decide) (by simp at long; omega)
      have more : 256 ^ rest.length ≤ b.toNat * 256 ^ rest.length := Nat.le_mul_of_pos_left _ positive
      omega

/-! ## Conversions of byte strings -/

/-- The address of 20 bytes; a byte string of another length is none. -/
def Address.ofExactly? (bytes : List UInt8) : Option Address :=
  if bytes.length = 20 then some (ofBytes bytes) else none

/-- The word of at most 32 bytes; a longer byte string is none. -/
def Word.ofAtMost? (bytes : List UInt8) : Option Word :=
  if bytes.length ≤ 32 then some (ofBytes bytes) else none

theorem Address.bytes_ofBytes {bytes : List UInt8} (h : bytes.length = 20) : (ofBytes bytes).bytes = bytes := by
  have small : ofBigEndian bytes < 2 ^ 160 := by
    have less := ofBigEndian_lt bytes
    rwa [h] at less
  rw [Address.bytes, ofBytes, BitVec.toNat_ofNat, Nat.mod_eq_of_lt small, ← h, bigEndian_ofBigEndian]

/-- The word of an address has the bytes of the address behind zeros. -/
theorem Address.bytes_toWord (a : Address) : a.toWord.bytes = List.replicate 12 0 ++ a.bytes := by
  have length : (List.replicate 12 (0 : UInt8) ++ a.bytes).length = 32 := by simp [length_bytes]
  have number : ofBigEndian (List.replicate 12 (0 : UInt8) ++ a.bytes) = a.toWord.toNat := by
    rw [ofBigEndian_replicate_append, ofBigEndian_bytes, toNat_toWord]
  rw [Word.bytes, ← number, ← length, bigEndian_ofBigEndian]

theorem Word.toNat_ofBytes {bytes : List UInt8} (small : ofBigEndian bytes < 2 ^ 256) :
    (ofBytes bytes).toNat = ofBigEndian bytes :=
  Nat.mod_eq_of_lt small

theorem Word.toNat_ofBytes_of_length {bytes : List UInt8} (h : bytes.length = 32) :
    (ofBytes bytes).toNat = ofBigEndian bytes := by
  have less := ofBigEndian_lt bytes
  rw [h] at less
  exact toNat_ofBytes less

theorem Word.bytes_ofBytes {bytes : List UInt8} (h : bytes.length = 32) : (ofBytes bytes).bytes = bytes := by
  rw [Word.bytes, toNat_ofBytes_of_length h, ← h, bigEndian_ofBigEndian]

namespace Storage

/-- The slot of a mapping value from bytes, by conversions that may have no result. It is none if a conversion is
reached with a byte string that it has no result for. -/
def mappingSlotOfBytes? (hash : Hash) (key base : List UInt8) : Option (Except EncodingFault Word) :=
  let significant := base.dropWhile (· == 0)
  if key.length ≠ 20 then some (.error (.keyLength key.length))
  else if 32 < significant.length then some (.error (.baseSlotTooLarge base))
  else do
    let key ← Address.ofExactly? key
    let base ← Word.ofAtMost? significant
    return .ok (mappingSlot hash key base)

variable {hash : Hash} {key base : List UInt8}

/-- The lengths are checked before the conversions that need them. -/
theorem mappingSlotOfBytes?_eq (hash : Hash) (key base : List UInt8) :
    mappingSlotOfBytes? hash key base = some (mappingSlotOfBytes hash key base) := by
  rw [mappingSlotOfBytes?, mappingSlotOfBytes]
  split
  · rfl
  · rename_i length
    split
    · rfl
    · rename_i short
      rw [Address.ofExactly?, if_pos (by simpa using length), Word.ofAtMost?, if_pos (by omega)]
      rfl

theorem mappingSlotOfBytes_of_length_ne (length : key.length ≠ 20) :
    mappingSlotOfBytes hash key base = .error (.keyLength key.length) := by
  rw [mappingSlotOfBytes]
  exact if_pos length

theorem mappingSlotOfBytes_of_le (length : key.length = 20) (large : 2 ^ 256 ≤ ofBigEndian base) :
    mappingSlotOfBytes hash key base = .error (.baseSlotTooLarge base) := by
  have long : 32 < (base.dropWhile (· == 0)).length := by
    by_contra short
    have less := (length_significant_le_iff base 32).1 (by omega)
    exact absurd large (by simpa using less)
  rw [mappingSlotOfBytes]
  simp only [length, long, ne_eq, not_true_eq_false, if_false, if_true]

theorem mappingSlotOfBytes_bytes (account : Address) {slot : Word} (value : ofBigEndian base = slot.toNat) :
    mappingSlotOfBytes hash account.bytes base = .ok (mappingSlot hash account slot) := by
  have short : (base.dropWhile (· == 0)).length ≤ 32 := by
    rw [length_significant_le_iff, value]
    exact slot.isLt
  have word : Word.ofBytes (base.dropWhile (· == 0)) = slot := by
    apply BitVec.eq_of_toNat_eq
    rw [Word.toNat_ofBytes (by rw [ofBigEndian_dropWhile, value]; exact slot.isLt), ofBigEndian_dropWhile, value]
  rw [mappingSlotOfBytes]
  simp only [Address.length_bytes, ne_eq, not_true_eq_false, if_false, word, Address.ofBytes_bytes]
  rw [if_neg (by omega)]

theorem mappingSlotOfBytes_eq_ok_iff {result : Word} :
    mappingSlotOfBytes hash key base = .ok result ↔ ∃ (account : Address) (slot : Word),
      account.bytes = key ∧ ofBigEndian base = slot.toNat ∧ mappingSlot hash account slot = result := by
  constructor
  · intro h
    by_cases length : key.length = 20
    · by_cases large : 2 ^ 256 ≤ ofBigEndian base
      · rw [mappingSlotOfBytes_of_le length large] at h
        cases h
      · have account := Address.bytes_ofBytes length
        have slot : ofBigEndian base = (Word.ofBytes base).toNat := (Word.toNat_ofBytes (by omega)).symm
        have found := @mappingSlotOfBytes_bytes hash base (Address.ofBytes key) _ slot
        rw [account, h] at found
        exact ⟨_, _, account, slot, (Except.ok.inj found).symm⟩
    · rw [mappingSlotOfBytes_of_length_ne length] at h
      cases h
  · rintro ⟨account, slot, key, value, rfl⟩
    rw [← key]
    exact mappingSlotOfBytes_bytes account value

theorem exists_mappingSlotOfBytes_iff :
    (∃ result, mappingSlotOfBytes hash key base = .ok result) ↔ key.length = 20 ∧ ofBigEndian base < 2 ^ 256 := by
  constructor
  · rintro ⟨result, h⟩
    obtain ⟨account, slot, bytes, value, -⟩ := mappingSlotOfBytes_eq_ok_iff.1 h
    exact ⟨bytes ▸ account.length_bytes, value ▸ slot.isLt⟩
  · rintro ⟨length, small⟩
    have account := Address.bytes_ofBytes length
    have slot := (Word.toNat_ofBytes small).symm
    exact ⟨_, mappingSlotOfBytes_eq_ok_iff.2 ⟨_, _, account, slot, rfl⟩⟩

theorem mappingSlotOfBytes_replicate_append (zeros : Nat) {result : Word} :
    mappingSlotOfBytes hash key (List.replicate zeros 0 ++ base) = .ok result ↔
      mappingSlotOfBytes hash key base = .ok result := by
  rw [mappingSlotOfBytes_eq_ok_iff, mappingSlotOfBytes_eq_ok_iff, ofBigEndian_replicate_append]

/-- The slot of a mapping value is the same from the key and the base, from their bytes and from the literal of the
base. Bytes have one exactly when they are those of an address and of a number of 256 bits, with any zeros in front;
the length of the key is looked at first, and no conversion is reached that has no result. A literal has one exactly
when it is read as a word. -/
theorem mappingSlot_agrees (hash : Hash) :
    (∀ key base : List UInt8,
      ((∃ result, mappingSlotOfBytes hash key base = .ok result) ↔ key.length = 20 ∧ ofBigEndian base < 2 ^ 256) ∧
      (∀ result, mappingSlotOfBytes hash key base = .ok result ↔ ∃ (account : Address) (slot : Word),
        account.bytes = key ∧ ofBigEndian base = slot.toNat ∧ mappingSlot hash account slot = result) ∧
      (∀ zeros result, mappingSlotOfBytes hash key (List.replicate zeros 0 ++ base) = .ok result ↔
        mappingSlotOfBytes hash key base = .ok result) ∧
      (key.length ≠ 20 → mappingSlotOfBytes hash key base = .error (.keyLength key.length)) ∧
      (key.length = 20 → 2 ^ 256 ≤ ofBigEndian base →
        mappingSlotOfBytes hash key base = .error (.baseSlotTooLarge base)) ∧
      mappingSlotOfBytes? hash key base = some (mappingSlotOfBytes hash key base)) ∧
    (∀ (key : Address) (literal : String),
      (∀ slot, Word.ofLiteral literal = .ok slot →
        mappingSlotOfLiteral hash key literal = .ok (mappingSlot hash key slot)) ∧
      (∀ fault, mappingSlotOfLiteral hash key literal = .error fault ↔ Word.ofLiteral literal = .error fault)) := by
  constructor
  · intro key base
    exact ⟨exists_mappingSlotOfBytes_iff, fun _ => mappingSlotOfBytes_eq_ok_iff,
      fun zeros _ => mappingSlotOfBytes_replicate_append zeros, mappingSlotOfBytes_of_length_ne,
      mappingSlotOfBytes_of_le, mappingSlotOfBytes?_eq hash key base⟩
  · intro key literal
    rw [mappingSlotOfLiteral]
    cases Word.ofLiteral literal with
    | error fault => simp [Except.map]
    | ok slot => simp [Except.map]

end Storage

end ProxyForge
