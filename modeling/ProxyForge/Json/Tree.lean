import ProxyForge.Json.Scan

/-!
# JSON values

A value keeps the members of an object as they are written, repeated names included; what a repeated name means is
for the reader of a record or of a map to say. Reading goes over the tokens once and holds the containers that are
still open in a list, so that values may be nested to any depth. Writing gives the tokens of a value back.
-/

namespace ProxyForge

/-- A JSON value; a string or a member's name is `none` when it is no text. -/
inductive Json where
  | null
  | bool (value : Bool)
  | number (value : Json.Number)
  | string (content : Option String)
  | array (items : List Json)
  | object (members : List (Option String × Json))

namespace Json

/-- A container that is still open: what it holds already, last first, and the name its next value stands under. -/
inductive Frame where
  | array (done : List Json)
  | object (done : List (Option String × Json)) (name : Option String)

/-- What may come next, inside the containers that are open around it. -/
inductive Expects where
  | value (around : List Frame)
  | valueOrClose (around : List Frame)
  | commaOrBracket (done : List Json) (around : List Frame)
  | nameOrClose (around : List Frame)
  | name (done : List (Option String × Json)) (around : List Frame)
  | colon (done : List (Option String × Json)) (name : Option String) (around : List Frame)
  | commaOrBrace (done : List (Option String × Json)) (around : List Frame)
  | nothing (value : Json)

/-- Puts a whole value where it belongs. -/
def place (value : Json) : List Frame → Expects
  | [] => .nothing value
  | .array done :: around => .commaOrBracket (value :: done) around
  | .object done name :: around => .commaOrBrace ((name, value) :: done) around

/-- Reads the first token of a value. -/
def acceptValue (around : List Frame) : Token → Option Expects
  | .null => some (place .null around)
  | .bool value => some (place (.bool value) around)
  | .number value => some (place (.number value) around)
  | .string content => some (place (.string content) around)
  | .openBracket => some (.valueOrClose around)
  | .openBrace => some (.nameOrClose around)
  | _ => none

/-- Reads one more token. -/
def accept : Expects → Token → Option Expects
  | .value around, token => acceptValue around token
  | .valueOrClose around, .closeBracket => some (place (.array []) around)
  | .valueOrClose around, token => acceptValue (.array [] :: around) token
  | .commaOrBracket done around, .comma => some (.value (.array done :: around))
  | .commaOrBracket done around, .closeBracket => some (place (.array done.reverse) around)
  | .nameOrClose around, .closeBrace => some (place (.object []) around)
  | .nameOrClose around, .string name => some (.colon [] name around)
  | .name done around, .string name => some (.colon done name around)
  | .colon done name around, .colon => some (.value (.object done name :: around))
  | .commaOrBrace done around, .comma => some (.name done around)
  | .commaOrBrace done around, .closeBrace => some (place (.object done.reverse) around)
  | _, _ => none

/-- Reads tokens to their end, where exactly one value must have been read. -/
def readTokens : Expects → List Token → Option Json
  | .nothing value, [] => some value
  | _, [] => none
  | expects, token :: tokens =>
    match accept expects token with
    | none => none
    | some expects => readTokens expects tokens

/-- The value that tokens stand for. -/
def ofTokens? (tokens : List Token) : Option Json :=
  readTokens (.value []) tokens

/-- The value of a text with gaps. -/
def parseScanned (cs : List (Option Char)) : Option Json :=
  (scan cs).bind ofTokens?

/-- The value of a text. -/
def parse (text : String) : Option Json :=
  parseScanned (text.toList.map some)

mutual

/-- The tokens of a value. -/
def tokens : Json → List Token
  | null => [.null]
  | bool value => [.bool value]
  | number value => [.number value]
  | string content => [.string content]
  | array [] => [.openBracket, .closeBracket]
  | array (item :: items) => .openBracket :: tokens item ++ itemTokens items
  | object [] => [.openBrace, .closeBrace]
  | object ((name, value) :: members) => .openBrace :: .string name :: .colon :: tokens value ++ memberTokens members

/-- The tokens of the further items of an array, to its end. -/
def itemTokens : List Json → List Token
  | [] => [.closeBracket]
  | item :: items => .comma :: tokens item ++ itemTokens items

/-- The tokens of the further members of an object, to its end. -/
def memberTokens : List (Option String × Json) → List Token
  | [] => [.closeBrace]
  | (name, value) :: members => .comma :: .string name :: .colon :: tokens value ++ memberTokens members

end

/-- The text of a value without spaces. -/
def compact (value : Json) : String :=
  String.ofList (value.tokens.flatMap Token.text)

/-- A string that is a text. -/
def ofString (text : String) : Json :=
  string (some text)

/-- An object with texts for names. -/
def ofMembers (members : List (String × Json)) : Json :=
  object (members.map fun m => (some m.1, m.2))

end Json

end ProxyForge
