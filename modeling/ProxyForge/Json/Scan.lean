import ProxyForge.Hex
import ProxyForge.Json.Token

/-!
# The tokens of a text

A JSON text is read character by character; a gap, `none`, stands where the bytes it was read from are no UTF-8, and
may stand inside a string only. Words and numbers are the longest stretches of their characters. Escapes of
surrogate pairs are put together when the string ends.
-/

namespace ProxyForge.Json

/-- A piece of a string: a character, a gap, or the sixteen bits of a hexadecimal escape. -/
inductive Piece where
  | char (c : Char)
  | gap
  | code (bits : Nat)
  deriving DecidableEq, Repr

/-- The text of the pieces of a string, if it is one: there is no gap, and every surrogate half has its partner. -/
def content : List Piece → Option (List Char)
  | [] => some []
  | .char c :: rest => (content rest).map (c :: ·)
  | .gap :: _ => none
  | .code high :: .code low :: rest =>
    if 0xD800 ≤ high && high < 0xDC00 then
      if 0xDC00 ≤ low && low < 0xE000 then
        (content rest).map (Char.ofNat (0x10000 + (high - 0xD800) * 0x400 + (low - 0xDC00)) :: ·)
      else none
    else if 0xDC00 ≤ high && high < 0xE000 then none
    else (content (.code low :: rest)).map (Char.ofNat high :: ·)
  | .code bits :: rest =>
    if 0xD800 ≤ bits && bits < 0xE000 then none else (content rest).map (Char.ofNat bits :: ·)

/-- What is being read; pieces and characters are kept last first. -/
inductive Mode where
  | between
  | bare (read : List Char)
  | inString (read : List Piece)
  | escape (read : List Piece)
  | escapeDigits (read : List Piece) (left value : Nat)
  deriving DecidableEq, Repr

/-- The characters that may stand between tokens. -/
def isSpace (c : Char) : Bool :=
  c = ' ' || c = '\n' || c = '\r' || c = '\t'

/-- The characters of words and numbers. -/
def isBare (c : Char) : Bool :=
  c.isAlphanum || c = '-' || c = '+' || c = '.'

/-- The token of a whole stretch of characters of words and numbers. -/
def bareToken (cs : List Char) : Option Token :=
  if cs = ['n', 'u', 'l', 'l'] then some .null
  else if cs = ['t', 'r', 'u', 'e'] then some (.bool true)
  else if cs = ['f', 'a', 'l', 's', 'e'] then some (.bool false)
  else if h : isNumber cs = true then some (.number ⟨cs, h⟩)
  else none

/-- The character of a short escape. -/
def shortEscape (c : Char) : Option Char :=
  if c = '"' || c = '\\' || c = '/' then some c
  else if c = 'b' then some '\x08'
  else if c = 'f' then some '\x0c'
  else if c = 'n' then some '\n'
  else if c = 'r' then some '\r'
  else if c = 't' then some '\t'
  else none

/-- Reads a character between tokens: the token it is, if any, and what is being read then. -/
def readBetween (c : Char) : Option (List Token × Mode) :=
  if isSpace c then some ([], .between)
  else if c = '"' then some ([], .inString [])
  else if isBare c then some ([], .bare [c])
  else if c = '\x7b' then some ([.openBrace], .between)
  else if c = '\x7d' then some ([.closeBrace], .between)
  else if c = '[' then some ([.openBracket], .between)
  else if c = ']' then some ([.closeBracket], .between)
  else if c = ':' then some ([.colon], .between)
  else if c = ',' then some ([.comma], .between)
  else none

/-- Reads a character inside a string. -/
def readInString (read : List Piece) (c : Char) : Option (List Token × Mode) :=
  if c = '"' then some ([.string ((content read.reverse).map String.ofList)], .between)
  else if c = '\\' then some ([], .escape read)
  else if c.toNat < 0x20 then none
  else some ([], .inString (.char c :: read))

/-- Reads one more character or gap: the tokens that end with it, and what is being read then. -/
def read : Mode → Option Char → Option (List Token × Mode)
  | .between, some c => readBetween c
  | .bare cs, some c =>
    if isBare c then some ([], .bare (c :: cs))
    else match bareToken cs.reverse, readBetween c with
      | some token, some (tokens, mode) => some (token :: tokens, mode)
      | _, _ => none
  | .inString ps, some c => readInString ps c
  | .inString ps, none => some ([], .inString (.gap :: ps))
  | .escape ps, some c =>
    if c = 'u' then some ([], .escapeDigits ps 4 0)
    else (shortEscape c).map fun c => ([], .inString (.char c :: ps))
  | .escapeDigits ps left value, some c =>
    match Hex.value? c with
    | none => none
    | some digit =>
      let value := value * 16 + digit
      if left ≤ 1 then some ([], .inString (.code value :: ps)) else some ([], .escapeDigits ps (left - 1) value)
  | _, none => none

/-- The tokens that end with the text. -/
def finish : Mode → Option (List Token)
  | .between => some []
  | .bare cs => (bareToken cs.reverse).map fun token => [token]
  | _ => none

/-- Reads a text from a mode on; `done` are the tokens read before, last first. -/
def scanFrom (done : List Token) : Mode → List (Option Char) → Option (List Token)
  | mode, [] => (finish mode).map (done.reverse ++ ·)
  | mode, c :: cs =>
    match read mode c with
    | none => none
    | some (tokens, mode) => scanFrom (tokens.reverse ++ done) mode cs

/-- The tokens of a text, if it consists of tokens. -/
def scan (cs : List (Option Char)) : Option (List Token) :=
  scanFrom [] .between cs

end ProxyForge.Json
