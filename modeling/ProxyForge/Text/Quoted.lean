import ProxyForge.Text.Unprintable

/-!
# Quoted texts

Paths and characters stand in messages between quotes. Inside them a backslash and the quote itself are
escaped, `NUL`, tab, carriage return and line feed have short escapes, and every other character that
cannot be seen is written by its number, so that a message shows what a path is made of.
-/

namespace ProxyForge.Text

/-- A character as it stands between two `quote`s. -/
def escaped (quote c : Char) : List Char :=
  if c = '\x00' then ['\\', '0']
  else if c = '\t' then ['\\', 't']
  else if c = '\r' then ['\\', 'r']
  else if c = '\n' then ['\\', 'n']
  else if c = '\\' then ['\\', '\\']
  else if c = quote then ['\\', quote]
  else if isUnprintable c then '\\' :: 'u' :: '\x7b' :: Nat.toDigits 16 c.toNat ++ ['\x7d']
  else [c]

/-- A text between double quotes. -/
def quoted (text : String) : String :=
  "\"" ++ String.ofList (text.toList.flatMap (escaped '"')) ++ "\""

/-- A character between single quotes. -/
def quotedChar (c : Char) : String :=
  "'" ++ String.ofList (escaped '\'' c) ++ "'"

end ProxyForge.Text
