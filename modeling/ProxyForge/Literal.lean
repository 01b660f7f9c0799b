import ProxyForge.Text.Blank
import ProxyForge.Text.Quoted
import ProxyForge.Word

/-!
# Literals of addresses and integers

Relayers send every field of a deployment as text. An address is forty hexadecimal digits of either case,
with or without `0x` in front. An integer is trimmed and then read as hexadecimal behind `0x` and as decimal
otherwise. What is refused is refused with a cause: the literal and the first thing wrong with it.
-/

namespace ProxyForge

/-- What is wrong with the literal of a 256-bit integer. -/
inductive IntegerFault where
  | noDigits
  | negative
  | badDecimal
  | decimalTooLarge
  | hexTooLong
  | badHex (c : Char) (index : Nat)
  deriving DecidableEq, Repr

/-- What is wrong with the literal of an address. -/
inductive AddressFault where
  | notHex (fault : Hex.Fault)
  | length (found : Nat)
  deriving DecidableEq, Repr

/-- Why a value could not be read from its encoding. -/
inductive EncodingFault where
  | address (literal : String) (fault : AddressFault)
  | integer (literal : String) (fault : IntegerFault)
  | keyLength (found : Nat)
  | baseSlotTooLarge (bytes : List UInt8)
  | reported (text : String)
  deriving DecidableEq, Repr

namespace Hex.Fault

/-- The wording of a fault in a text of hexadecimal digits. -/
def message : Fault → String
  | oddLength => "Odd number of digits"
  | badCharacter c position => s!"Invalid character {Text.quotedChar c} at position {position}"

end Hex.Fault

namespace IntegerFault

/-- The wording of a fault in an integer literal. -/
def message : IntegerFault → String
  | noDigits => "no digits"
  | negative => "negative values are not allowed"
  | badDecimal => "InvalidCharacter"
  | decimalTooLarge => "InvalidLength"
  | hexTooLong =>
    "FromStrRadixErr \x7b kind: InvalidLength, " ++
      "source: Some(Hex(FromHexError \x7b inner: InvalidStringLength \x7d)) \x7d"
  | badHex c index =>
    "FromStrRadixErr \x7b kind: InvalidCharacter, source: Some(Hex(FromHexError \x7b " ++
      s!"inner: InvalidHexCharacter \x7b c: {Text.quotedChar c}, index: {index} \x7d \x7d)) \x7d"

end IntegerFault

namespace AddressFault

/-- The wording of a fault in an address literal. -/
def message : AddressFault → String
  | notHex fault => fault.message
  | length found => s!"expected 20 bytes, found {found}"

end AddressFault

namespace EncodingFault

/-- The wording of a fault in an encoded value. -/
def message : EncodingFault → String
  | address literal fault => s!"Invalid address `{literal}`: {fault.message}"
  | integer literal fault => s!"Invalid unsigned 256-bit integer `{literal}`: {fault.message}"
  | keyLength found => s!"The mapping key must be 20 bytes long, found {found}"
  | baseSlotTooLarge bytes =>
    s!"The base slot `0x{String.ofList (Hex.encode bytes)}` does not fit into 256 bits"
  | reported text => text

end EncodingFault

namespace Literal

/-- A text without one `0x` at its front. -/
def withoutMark : List Char → List Char
  | '0' :: 'x' :: rest => rest
  | cs => cs

/-- The number of a text of decimal digits; `value` is the number of the digits already read. It is refused at
the first character that is no digit or the first digit that leaves 256 bits, whichever comes first. -/
def decimal (value : Nat) : List Char → Except IntegerFault Nat
  | [] => .ok value
  | c :: cs =>
    if c.isDigit then
      let value := value * 10 + (c.toNat - 48)
      if value < Nat.pow 2 256 then decimal value cs else .error .decimalTooLarge
    else .error .badDecimal

/-- The number of a text of at most 64 hexadecimal digits. A fault counts its place in the digits filled up to
whole bytes. -/
def hexadecimal (cs : List Char) : Except IntegerFault Nat :=
  let length := Text.utf8Length cs
  if 64 < length then .error .hexTooLong
  else match Hex.values (length % 2) cs with
    | .ok digits => .ok (digits.foldl (fun v d => v * 16 + d) 0)
    | .error .oddLength => .error .hexTooLong
    | .error (.badCharacter c position) => .error (.badHex c position)

/-- The number of a trimmed integer literal. Behind `0x` a second `0x` is passed over. -/
def integer : List Char → Except IntegerFault Nat
  | '0' :: 'x' :: digits => if digits.isEmpty then .error .noDigits else hexadecimal (withoutMark digits)
  | '-' :: _ => .error .negative
  | cs => decimal 0 cs

/-- The address of a literal without its mark: digits of exactly twenty bytes. -/
def address (cs : List Char) : Except AddressFault Address :=
  match Hex.decode cs with
  | .error fault => .error (.notHex fault)
  | .ok bytes => if bytes.length = 20 then .ok (Address.ofBytes bytes) else .error (.length bytes.length)

end Literal

/-- Reads a 256-bit integer literal, decimal or hexadecimal behind `0x`, with blanks around it. -/
def Word.ofLiteral (literal : String) : Except EncodingFault Word :=
  let trimmed := Text.trim literal.toList
  match Literal.integer trimmed with
  | .ok value => .ok (BitVec.ofNat 256 value)
  | .error fault => .error (.integer (String.ofList trimmed) fault)

/-- Reads an address literal, with or without `0x`. -/
def Address.ofLiteral (literal : String) : Except EncodingFault Address :=
  match Literal.address (Literal.withoutMark literal.toList) with
  | .ok address => .ok address
  | .error fault => .error (.address literal fault)

end ProxyForge
