import ProxyForge.Hex

/-!
# Storage words and addresses

A storage word has 256 bits and an account address 160. Both are written big-endian: `bigEndian n v` are the
`n` low bytes of a number, and `ofBigEndian` reads bytes back as a number. A slot, a digest and an amount
are all words; which of its texts is written (the 64 digits or the decimal number) belongs to the place it
stands in.
-/

namespace ProxyForge

/-- A machine word: a slot, a stored value, an amount or a digest. -/
abbrev Word := BitVec 256

/-- An account address. -/
abbrev Address := BitVec 160

/-- The `n` low bytes of a number, highest first. -/
def bigEndian : Nat → Nat → List UInt8
  | 0, _ => []
  | n + 1, v => bigEndian n (v / 256) ++ [UInt8.ofNat (v % 256)]

/-- The number whose bytes, highest first, are given. -/
def ofBigEndian (bytes : List UInt8) : Nat :=
  bytes.foldl (fun v b => v * 256 + b.toNat) 0

@[simp] theorem length_bigEndian (n v : Nat) : (bigEndian n v).length = n := by
  induction n generalizing v with
  | zero => rfl
  | succ n ih => simp [bigEndian, ih]

theorem ofBigEndian_snoc (bytes : List UInt8) (b : UInt8) :
    ofBigEndian (bytes ++ [b]) = ofBigEndian bytes * 256 + b.toNat := by
  simp [ofBigEndian, List.foldl_append]

/-- Reading back the `n` low bytes of a number gives the number modulo `256 ^ n`. -/
theorem ofBigEndian_bigEndian (n v : Nat) : ofBigEndian (bigEndian n v) = v % Nat.pow 256 n := by
  induction n generalizing v with
  | zero => simp [bigEndian, ofBigEndian, Nat.mod_one]
  | succ n ih =>
    rw [bigEndian, ofBigEndian_snoc, ih]
    show _ = v % (Nat.pow 256 n * 256)
    rw [Nat.mul_comm (Nat.pow 256 n) 256, Nat.mod_mul]
    simp
    omega

namespace Word

/-- The 32 bytes of a word. -/
def bytes (w : Word) : List UInt8 :=
  bigEndian 32 w.toNat

/-- The 64 digits of a word. -/
def hex (w : Word) : String :=
  String.ofList (Hex.encode w.bytes)

/-- The decimal number of a word. -/
def decimal (w : Word) : String :=
  toString w.toNat

/-- The word that the last 32 bytes of a byte string stand for. -/
def ofBytes (bytes : List UInt8) : Word :=
  BitVec.ofNat 256 (ofBigEndian bytes)

theorem length_bytes (w : Word) : w.bytes.length = 32 := length_bigEndian 32 _

theorem ofBytes_bytes (w : Word) : ofBytes w.bytes = w := by
  apply BitVec.eq_of_toNat_eq
  simpa [ofBytes, bytes, ofBigEndian_bigEndian] using w.isLt

end Word

namespace Address

/-- The 20 bytes of an address. -/
def bytes (a : Address) : List UInt8 :=
  bigEndian 20 a.toNat

/-- The 40 lower-case digits of an address. -/
def hex (a : Address) : String :=
  String.ofList (Hex.encode a.bytes)

/-- The address that the last 20 bytes of a byte string stand for. -/
def ofBytes (bytes : List UInt8) : Address :=
  BitVec.ofNat 160 (ofBigEndian bytes)

/-- The word that holds an address in its low bits, with zeros in front. -/
def toWord (a : Address) : Word :=
  a.setWidth 256

theorem length_bytes (a : Address) : a.bytes.length = 20 := length_bigEndian 20 _

theorem ofBytes_bytes (a : Address) : ofBytes a.bytes = a := by
  apply BitVec.eq_of_toNat_eq
  simpa [ofBytes, bytes, ofBigEndian_bigEndian] using a.isLt

@[simp] theorem toNat_toWord (a : Address) : a.toWord.toNat = a.toNat := by
  simp only [toWord, BitVec.toNat_setWidth]
  have := a.isLt
  omega

end Address

end ProxyForge
