import ProxyForge.Json.Double
import ProxyForge.Json.Tree
import ProxyForge.NameMap

/-!
# JSON texts for readers

An answer of the compiler that makes no sense is shown to the reader of the message, a value to a line and two spaces
for each container around it, with the names of an object in ascending order. Only a text that can be read as a
whole is shown like this: its strings are texts, its numbers are in the range of doubles and its containers are
nested less than 128 deep.
-/

namespace ProxyForge.Json

/-- The deepest nesting of containers; `depth` are those open already. -/
def nesting (depth deepest : Nat) : List Token → Nat
  | [] => deepest
  | .openBrace :: ts | .openBracket :: ts => nesting (depth + 1) (max deepest (depth + 1)) ts
  | .closeBrace :: ts | .closeBracket :: ts => nesting (depth - 1) deepest ts
  | _ :: ts => nesting depth deepest ts

/-- Whether a token can be read as a value of its own. -/
def Token.isReadable : Token → Bool
  | .string content => content.isSome
  | .number value => value.normalText?.isSome
  | _ => true

/-- The start of a line inside a number of containers. -/
def indentation (depth : Nat) : List Char :=
  '\n' :: List.replicate (2 * depth) ' '

/-- The lines of a container that is not empty. -/
def indentedBlock (depth : Nat) (opening closing : Char) (inside : List (List Char)) : List Char :=
  if inside.isEmpty then [opening, closing]
  else
    opening :: List.intercalate [','] (inside.map (indentation (depth + 1) ++ ·)) ++ indentation depth ++ [closing]

mutual

/-- The text of a value inside a number of containers. -/
def indentedChars (depth : Nat) : Json → List Char
  | null => Token.null.text
  | bool value => (Token.bool value).text
  | number value => value.normalText?.getD value.literal
  | string content => stringText content
  | array items => indentedBlock depth '[' ']' (indentedItems (depth + 1) items)
  | object members =>
    indentedBlock depth '\x7b' '\x7d' <|
      (NameMap.ofList (indentedMembers (depth + 1) members)).entries.map fun e =>
        stringText (some e.1) ++ ':' :: ' ' :: e.2

/-- The texts of items. -/
def indentedItems (depth : Nat) : List Json → List (List Char)
  | [] => []
  | item :: items => indentedChars depth item :: indentedItems depth items

/-- The names and texts of members. -/
def indentedMembers (depth : Nat) : List (Option String × Json) → List (String × List Char)
  | [] => []
  | (name, value) :: members => (name.getD "", indentedChars depth value) :: indentedMembers depth members

end

/-- The text of a value with a line for each of its parts. -/
def indented (value : Json) : String :=
  String.ofList (indentedChars 0 value)

/-- A text of JSON written anew for readers, if it can be read as a whole. -/
def indentedText? (cs : List (Option Char)) : Option String := do
  let tokens ← scan cs
  if 127 < nesting 0 0 tokens then none
  else if tokens.all Token.isReadable then (ofTokens? tokens).map indented
  else none

end ProxyForge.Json
