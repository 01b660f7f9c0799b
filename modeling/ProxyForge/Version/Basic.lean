import ProxyForge.Text.Quoted
import ProxyForge.Text.Split

/-!
# Semantic versions

A version has three numbers of 64 bits, an optional pre-release part and optional build metadata. Versions are read
strictly: each number has no leading zero, and the first thing that does not fit is the fault. A pre-release part
comes before the release it leads to; its identifiers are compared one by one, numbers by value and before names,
names by their characters, and a part that ends first comes first.
-/

namespace ProxyForge

/-- The parts of a version, by which faults say where they are. -/
inductive VersionPart where
  | major
  | minor
  | patch
  | preRelease
  | build
  deriving DecidableEq, Repr

/-- Why a text is no version or no requirement. -/
inductive VersionFault where
  | empty
  | unexpectedEnd (part : VersionPart)
  | unexpectedChar (part : VersionPart) (c : Char)
  | unexpectedCharAfter (part : VersionPart) (c : Char)
  | expectedComma (part : VersionPart) (found : Char)
  | leadingZero (part : VersionPart)
  | tooLarge (part : VersionPart)
  | emptySegment (part : VersionPart)
  | wildcardNotAlone (wildcard : Char)
  | afterWildcard
  | tooManyComparators
  deriving DecidableEq, Repr

namespace VersionPart

/-- The name of a part in messages. -/
def name : VersionPart → String
  | major => "major version number"
  | minor => "minor version number"
  | patch => "patch version number"
  | preRelease => "pre-release identifier"
  | build => "build metadata"

end VersionPart

namespace VersionFault

/-- The wording of a fault. -/
def message : VersionFault → String
  | empty => "empty string, expected a semver version"
  | unexpectedEnd part => s!"unexpected end of input while parsing {part.name}"
  | unexpectedChar part c => s!"unexpected character {Text.quotedChar c} while parsing {part.name}"
  | unexpectedCharAfter part c => s!"unexpected character {Text.quotedChar c} after {part.name}"
  | expectedComma part found => s!"expected comma after {part.name}, found {Text.quotedChar found}"
  | leadingZero part => s!"invalid leading zero in {part.name}"
  | tooLarge part => s!"value of {part.name} exceeds u64::MAX"
  | emptySegment part => s!"empty identifier segment in {part.name}"
  | wildcardNotAlone wildcard => s!"wildcard req ({wildcard}) must be the only comparator in the version req"
  | afterWildcard => "unexpected character after wildcard in version req"
  | tooManyComparators => "excessive number of version comparators"

end VersionFault

/-- An identifier of a pre-release part. -/
inductive PreIdentifier where
  | number (value : Nat)
  | name (text : String)
  deriving DecidableEq, Repr

/-- A pre-release part; a release has no identifier. -/
abbrev PreRelease := List PreIdentifier

/-- A semantic version. -/
structure Version where
  major : Nat
  minor : Nat
  patch : Nat
  pre : PreRelease
  build : List String
  deriving DecidableEq, Repr

namespace PreIdentifier

/-- The text of an identifier. -/
def text : PreIdentifier → String
  | number value => toString value
  | name text => text

/-- The order of identifiers: numbers by value, names by their characters, a number before a name. -/
def order : PreIdentifier → PreIdentifier → Ordering
  | number a, number b => compare a b
  | number _, name _ => .lt
  | name _, number _ => .gt
  | name a, name b => compare a b

/-- The identifier of a segment; a segment of digits is a number. -/
def ofSegment (segment : List Char) : PreIdentifier :=
  if segment.all Char.isDigit then number (segment.foldl (fun v c => v * 10 + (c.toNat - 48)) 0)
  else name (String.ofList segment)

end PreIdentifier

namespace PreRelease

/-- The text of a pre-release part. -/
def text (pre : PreRelease) : String :=
  String.intercalate "." (pre.map PreIdentifier.text)

/-- The order of lists of identifiers: by the first difference, and a list that ends first comes first. -/
def orderIdentifiers : List PreIdentifier → List PreIdentifier → Ordering
  | [], [] => .eq
  | [], _ :: _ => .lt
  | _ :: _, [] => .gt
  | a :: as, b :: bs => (a.order b).then (orderIdentifiers as bs)

/-- The order of pre-release parts: a release comes behind all of its pre-releases. -/
def order : PreRelease → PreRelease → Ordering
  | [], [] => .eq
  | [], _ :: _ => .gt
  | _ :: _, [] => .lt
  | as, bs => orderIdentifiers as bs

/-- Whether a part comes behind another. -/
def isAfter (a b : PreRelease) : Bool :=
  order a b == .gt

/-- Whether a part does not come before another. -/
def isAtLeast (a b : PreRelease) : Bool :=
  order a b != .lt

end PreRelease

namespace Version

/-- The text of a version. -/
def text (v : Version) : String :=
  toString v.major ++ "." ++ toString v.minor ++ "." ++ toString v.patch ++
    (if v.pre.isEmpty then "" else "-" ++ v.pre.text) ++
    (if v.build.isEmpty then "" else "+" ++ String.intercalate "." v.build)

/-- Reads the digits of a number that has begun; `value` is the number so far. -/
def digitsFrom (part : VersionPart) (value : Nat) : List Char → Except VersionFault (Nat × List Char)
  | [] => .ok (value, [])
  | c :: cs =>
    if c.isDigit then
      if value = 0 then .error (.leadingZero part)
      else
        let value := value * 10 + (c.toNat - 48)
        if value < Nat.pow 2 64 then digitsFrom part value cs else .error (.tooLarge part)
    else .ok (value, c :: cs)

/-- Reads a number, and gives what stands behind it. -/
def number (part : VersionPart) : List Char → Except VersionFault (Nat × List Char)
  | [] => .error (.unexpectedEnd part)
  | c :: cs => if c.isDigit then digitsFrom part (c.toNat - 48) cs else .error (.unexpectedChar part c)

/-- Passes over the dot behind a number. -/
def dot (part : VersionPart) : List Char → Except VersionFault (List Char)
  | [] => .error (.unexpectedEnd part)
  | c :: cs => if c = '.' then .ok cs else .error (.unexpectedCharAfter part c)

/-- The characters of identifiers and the dots between them. -/
def isIdentifierChar (c : Char) : Bool :=
  c.isAlphanum || c = '-' || c = '.'

/-- Checks segments in their order: none is empty, and no number of a pre-release part has a leading zero. -/
def checkSegments (part : VersionPart) : List (List Char) → Except VersionFault Unit
  | [] => .ok ()
  | segment :: segments =>
    if segment.isEmpty then .error (.emptySegment part)
    else if part = .preRelease && segment.all Char.isDigit && 1 < segment.length && segment.head? == some '0' then
      .error (.leadingZero part)
    else checkSegments part segments

/-- Reads the identifiers of a pre-release part or of build metadata, and gives what stands behind them. -/
def segments (part : VersionPart) (cs : List Char) : Except VersionFault (List (List Char) × List Char) :=
  let found := Text.splitAtEvery (· == '.') (cs.takeWhile isIdentifierChar)
  match checkSegments part found with
  | .error fault => .error fault
  | .ok () => .ok (found, cs.dropWhile isIdentifierChar)

/-- Reads the pre-release part behind its hyphen, if there is one. -/
def preRelease : List Char → Except VersionFault (PreRelease × List Char)
  | '-' :: cs => (segments .preRelease cs).map fun r => (r.1.map PreIdentifier.ofSegment, r.2)
  | cs => .ok ([], cs)

/-- Reads the build metadata behind its plus sign, if there is any. -/
def buildMetadata : List Char → Except VersionFault (List String × List Char)
  | '+' :: cs => (segments .build cs).map fun r => (r.1.map String.ofList, r.2)
  | cs => .ok ([], cs)

/-- The part that a whole version ends with. -/
def lastPart (pre : PreRelease) (build : List String) : VersionPart :=
  if !build.isEmpty then .build else if !pre.isEmpty then .preRelease else .patch

/-- Reads a version. -/
def parse (text : String) : Except VersionFault Version := do
  let cs := text.toList
  if cs.isEmpty then throw .empty
  let (major, cs) ← number .major cs
  let cs ← dot .major cs
  let (minor, cs) ← number .minor cs
  let cs ← dot .minor cs
  let (patch, cs) ← number .patch cs
  let (pre, cs) ← preRelease cs
  let (build, cs) ← buildMetadata cs
  match cs with
  | [] => return { major, minor, patch, pre, build }
  | c :: _ => throw (.unexpectedCharAfter (lastPart pre build) c)

end Version

end ProxyForge
