import ProxyForge.Json.Number

/-!
# Tokens of JSON texts

A string of a JSON text need not be a text itself: it may hold half of a surrogate pair, or bytes that are no
UTF-8. Such a string is `none`; it may stand where it is ignored and nowhere else. A compact JSON text is the
concatenation of the texts of its tokens; the string that is no text is written as half a surrogate pair.
-/

namespace ProxyForge.Json

/-- A token; the content of a string is `none` when it is no text. -/
inductive Token where
  | openBrace
  | closeBrace
  | openBracket
  | closeBracket
  | colon
  | comma
  | null
  | bool (value : Bool)
  | number (value : Number)
  | string (content : Option String)
  deriving DecidableEq

/-- A four-digit hexadecimal escape. -/
def unicodeEscape (code : Nat) : List Char :=
  let digits := Nat.toDigits 16 code
  '\\' :: 'u' :: List.replicate (4 - digits.length) '0' ++ digits

/-- A character inside a string: quotes, backslashes and controls are escaped, and nothing else. -/
def escapedChar (c : Char) : List Char :=
  if c = '"' then ['\\', '"']
  else if c = '\\' then ['\\', '\\']
  else if c = '\x08' then ['\\', 'b']
  else if c = '\x0c' then ['\\', 'f']
  else if c = '\n' then ['\\', 'n']
  else if c = '\r' then ['\\', 'r']
  else if c = '\t' then ['\\', 't']
  else if c.toNat < 0x20 then unicodeEscape c.toNat
  else [c]

/-- The text of a string token. -/
def stringText : Option String → List Char
  | some content => '"' :: content.toList.flatMap escapedChar ++ ['"']
  | none => '"' :: unicodeEscape 0xD800 ++ ['"']

namespace Token

/-- The text of a token. -/
def text : Token → List Char
  | openBrace => ['\x7b']
  | closeBrace => ['\x7d']
  | openBracket => ['[']
  | closeBracket => [']']
  | colon => [':']
  | comma => [',']
  | null => ['n', 'u', 'l', 'l']
  | bool true => ['t', 'r', 'u', 'e']
  | bool false => ['f', 'a', 'l', 's', 'e']
  | number value => value.literal
  | string content => stringText content

end Token

end ProxyForge.Json
