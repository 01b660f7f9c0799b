/-!
# Texts as UTF-8 bytes

`scan` reads a byte string as far as it is UTF-8: each well-formed sequence gives its character, and each
longest stretch that only begins a sequence (or a single byte that begins none) gives a gap, `none`. A
byte string is a text when it has no gap (`decode?`); shown to a reader, every gap becomes U+FFFD
(`decodeLossy`).

Code points are ordered like their byte sequences, so the order of strings by characters is their order by
bytes.
-/

namespace ProxyForge.Text

/-- The bytes of a text. -/
def utf8 (cs : List Char) : List UInt8 :=
  cs.flatMap String.utf8EncodeChar

/-- The number of bytes of a text. -/
def utf8Length : List Char → Nat
  | [] => 0
  | c :: cs => c.utf8Size + utf8Length cs

/-- A sequence of which some bytes have been read: the value of its bits so far, and for each byte to come
the range it has to lie in. -/
structure Partial where
  value : Nat
  awaited : List (UInt8 × UInt8)

/-- What a byte at the start of a sequence says: a whole character, the sequence it begins, or neither. -/
inductive Lead where
  | whole (c : Char)
  | opens (p : Partial)
  | stray

/-- The well-formed sequences by their first byte. Narrowed second bytes keep out overlong forms,
surrogates and values past U+10FFFF. -/
def lead (b : UInt8) : Lead :=
  let tail : UInt8 × UInt8 := (0x80, 0xBF)
  let n := b.toNat
  if b ≤ 0x7F then .whole (Char.ofNat n)
  else if b < 0xC2 then .stray
  else if b ≤ 0xDF then .opens ⟨n - 0xC0, [tail]⟩
  else if b = 0xE0 then .opens ⟨0, [(0xA0, 0xBF), tail]⟩
  else if b = 0xED then .opens ⟨0xD, [(0x80, 0x9F), tail]⟩
  else if b ≤ 0xEF then .opens ⟨n - 0xE0, [tail, tail]⟩
  else if b = 0xF0 then .opens ⟨0, [(0x90, 0xBF), tail, tail]⟩
  else if b ≤ 0xF3 then .opens ⟨n - 0xF0, [tail, tail, tail]⟩
  else if b = 0xF4 then .opens ⟨4, [(0x80, 0x8F), tail, tail]⟩
  else .stray

/-- What a byte gives at the start of a sequence, and the sequence it begins. -/
def start (b : UInt8) : List (Option Char) × Option Partial :=
  match lead b with
  | .whole c => ([some c], none)
  | .opens p => ([], some p)
  | .stray => ([none], none)

/-- What one more byte gives after a sequence that has begun, and the sequence that is open behind it. A byte
that does not continue the sequence leaves a gap and is read afresh. -/
def advance (begun : Option Partial) (b : UInt8) : List (Option Char) × Option Partial :=
  match begun with
  | none => start b
  | some ⟨_, []⟩ => start b
  | some ⟨value, (lo, hi) :: awaited⟩ =>
    if lo ≤ b && b ≤ hi then
      let value := value * 64 + (b.toNat - 0x80)
      if awaited.isEmpty then ([some (Char.ofNat value)], none) else ([], some ⟨value, awaited⟩)
    else (none :: (start b).1, (start b).2)

/-- Reads on after a sequence that has begun, or at a boundary when there is none. -/
def scanFrom : Option Partial → List UInt8 → List (Option Char)
  | none, [] => []
  | some _, [] => [none]
  | begun, b :: bs => (advance begun b).1 ++ scanFrom (advance begun b).2 bs

/-- The characters of a byte string, with a gap for each stretch that is no part of a text. -/
def scan (bytes : List UInt8) : List (Option Char) :=
  scanFrom none bytes

/-- The characters of a scan without gaps. -/
def whole? : List (Option Char) → Option (List Char)
  | [] => some []
  | none :: _ => none
  | some c :: cs => (whole? cs).map (c :: ·)

/-- The text of a byte string, if it is one. -/
def decode? (bytes : List UInt8) : Option String :=
  (whole? (scan bytes)).map String.ofList

/-- The text of a byte string with U+FFFD in its gaps. -/
def decodeLossy (bytes : List UInt8) : String :=
  String.ofList ((scan bytes).map fun c => c.getD '\uFFFD')

@[simp] theorem whole?_map_some (cs : List Char) : whole? (cs.map some) = some cs := by
  induction cs with
  | nil => rfl
  | cons c cs ih => simp [whole?, ih]

/-- A scan without gaps is whole. -/
theorem exists_map_some {us : List (Option Char)} (h : none ∉ us) : ∃ cs : List Char, us = cs.map some := by
  induction us with
  | nil => exact ⟨[], rfl⟩
  | cons u us ih =>
    rw [List.mem_cons, not_or] at h
    obtain ⟨c, rfl⟩ := Option.ne_none_iff_exists'.1 (Ne.symm h.1)
    obtain ⟨cs, rfl⟩ := ih h.2
    exact ⟨c :: cs, rfl⟩

end ProxyForge.Text
