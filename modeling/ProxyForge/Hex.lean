import ProxyForge.Text.Utf8

/-!
# Hexadecimal text of byte strings

Each byte is two digits, high half first. `encode` writes lower case; `decode` takes either case and names
the first fault: an odd number of digits, or else the leftmost character that is no digit. The fault
speaks of bytes: a position counts the bytes in front, and of a character outside ASCII the first byte is
shown, as the character that has its number. `decode_encode` says that digits are read back as the bytes they
were written for.
-/

namespace ProxyForge.Hex

/-- The lower-case digit of a value below sixteen. -/
def digit (n : Nat) : Char :=
  if n < 10 then Char.ofNat (48 + n) else Char.ofNat (87 + n)

/-- The value of a digit of either case. -/
def value? (c : Char) : Option Nat :=
  let n := c.toNat
  if 48 ≤ n ∧ n ≤ 57 then some (n - 48)
  else if 97 ≤ n ∧ n ≤ 102 then some (n - 87)
  else if 65 ≤ n ∧ n ≤ 70 then some (n - 55)
  else none

/-- Whether a character is a digit. -/
def isDigit (c : Char) : Bool :=
  (value? c).isSome

/-- The digits of a byte string. -/
def encode : List UInt8 → List Char
  | [] => []
  | b :: bs => digit (b.toNat / 16) :: digit (b.toNat % 16) :: encode bs

/-- Why a text is not the digits of a byte string. -/
inductive Fault where
  | oddLength
  | badCharacter (c : Char) (position : Nat)
  deriving DecidableEq, Repr

/-- The first byte of a character, as the character that has its number. -/
def firstByte (c : Char) : Char :=
  match String.utf8EncodeChar c with
  | [] => c
  | b :: _ => Char.ofNat b.toNat

/-- The bytes of a list of digit values, two values a byte. -/
def pack : List Nat → List UInt8
  | hi :: lo :: rest => UInt8.ofNat (16 * hi + lo) :: pack rest
  | _ => []

/-- The values of the digits of a text; `position` counts those already read. -/
def values (position : Nat) : List Char → Except Fault (List Nat)
  | [] => .ok []
  | c :: cs =>
    match value? c with
    | none => .error (.badCharacter (firstByte c) position)
    | some v => (values (position + 1) cs).map (v :: ·)

/-- The byte string that a text of digits stands for. -/
def decode (cs : List Char) : Except Fault (List UInt8) :=
  if Text.utf8Length cs % 2 = 1 then .error .oddLength
  else (values 0 cs).map pack

theorem length_encode (bs : List UInt8) : (encode bs).length = 2 * bs.length := by
  induction bs with
  | nil => rfl
  | cons b bs ih => simp [encode, ih]; omega

/-- A digit is one byte of text and is read as its value. -/
theorem value?_digit {n : Nat} (h : n < 16) : value? (digit n) = some n ∧ (digit n).utf8Size = 1 := by
  have table : ∀ n ∈ List.range 16, value? (digit n) = some n ∧ (digit n).utf8Size = 1 := by decide
  exact table n (List.mem_range.2 h)

theorem utf8Length_encode (bs : List UInt8) : Text.utf8Length (encode bs) = 2 * bs.length := by
  induction bs with
  | nil => rfl
  | cons b bs ih =>
    have hb := b.toNat_lt
    simp only [encode, Text.utf8Length, ih, List.length_cons, (value?_digit (show b.toNat / 16 < 16 by omega)).2,
      (value?_digit (show b.toNat % 16 < 16 by omega)).2]
    omega

theorem values_encode (position : Nat) (bs : List UInt8) :
    values position (encode bs) = .ok (bs.flatMap fun b => [b.toNat / 16, b.toNat % 16]) := by
  induction bs generalizing position with
  | nil => rfl
  | cons b bs ih =>
    have hb := b.toNat_lt
    simp only [encode, values, (value?_digit (show b.toNat / 16 < 16 by omega)).1,
      (value?_digit (show b.toNat % 16 < 16 by omega)).1, ih, List.flatMap_cons]
    rfl

theorem pack_halves (bs : List UInt8) : pack (bs.flatMap fun b => [b.toNat / 16, b.toNat % 16]) = bs := by
  induction bs with
  | nil => rfl
  | cons b bs ih =>
    simp only [List.flatMap_cons, List.cons_append, List.nil_append, pack, ih, Nat.div_add_mod, UInt8.ofNat_toNat]

/-- The digits of a byte string are read as the byte string. -/
theorem decode_encode (bs : List UInt8) : decode (encode bs) = .ok bs := by
  rw [decode, utf8Length_encode, if_neg (by omega), values_encode]
  simp [Except.map, pack_halves]

end ProxyForge.Hex
