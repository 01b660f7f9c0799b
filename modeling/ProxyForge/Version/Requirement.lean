import ProxyForge.Version.Basic

/-!
# Version requirements

A requirement is a list of at most thirty-two comparators; a version satisfies it when it satisfies them all. A
pre-release satisfies it only if, in addition, some comparator names a pre-release of the same three numbers, so that
a range of releases does not let in the pre-releases between them.
-/

namespace ProxyForge

/-- How a comparator bounds a version. A wildcard stands for the numbers that are left out. -/
inductive Bound where
  | exact
  | greater
  | greaterEq
  | less
  | lessEq
  | tilde
  | caret
  | wildcard
  deriving DecidableEq, Repr

/-- One bound on a version, of which the last numbers may be left out. -/
structure Comparator where
  bound : Bound
  major : Nat
  minor : Option Nat
  patch : Option Nat
  pre : PreRelease
  deriving DecidableEq, Repr

/-- What a version has to satisfy; without a comparator, every version does. -/
structure Requirement where
  comparators : List Comparator
  deriving DecidableEq, Repr

namespace Bound

/-- The operator of a bound. -/
def text : Bound → String
  | exact => "="
  | greater => ">"
  | greaterEq => ">="
  | less => "<"
  | lessEq => "<="
  | tilde => "~"
  | caret => "^"
  | wildcard => ""

/-- Reads the operator in front of a comparator. -/
def ofChars : List Char → Option Bound × List Char
  | '=' :: cs => (some exact, cs)
  | '>' :: '=' :: cs => (some greaterEq, cs)
  | '>' :: cs => (some greater, cs)
  | '<' :: '=' :: cs => (some lessEq, cs)
  | '<' :: cs => (some less, cs)
  | '~' :: cs => (some tilde, cs)
  | '^' :: cs => (some caret, cs)
  | cs => (none, cs)

end Bound

namespace Comparator

/-- The text of a comparator. -/
def text (c : Comparator) : String :=
  let star := if c.bound = .wildcard then ".*" else ""
  c.bound.text ++ toString c.major ++
    match c.minor, c.patch with
    | none, _ => star
    | some minor, none => "." ++ toString minor ++ star
    | some minor, some patch =>
      "." ++ toString minor ++ "." ++ toString patch ++ (if c.pre.isEmpty then "" else "-" ++ c.pre.text)

/-- Whether a version has the numbers and the pre-release part that are given. -/
def matchesExact (c : Comparator) (v : Version) : Bool :=
  v.major == c.major && c.minor.all (v.minor == ·) && c.patch.all (v.patch == ·) && v.pre == c.pre

/-- Whether a version comes behind the given one. A number left out stands for all, and none is behind all. -/
def matchesGreater (c : Comparator) (v : Version) : Bool :=
  if v.major ≠ c.major then c.major < v.major
  else match c.minor with
    | none => false
    | some minor =>
      if v.minor ≠ minor then minor < v.minor
      else match c.patch with
        | none => false
        | some patch => if v.patch ≠ patch then patch < v.patch else v.pre.isAfter c.pre

/-- Whether a version comes before the given one. -/
def matchesLess (c : Comparator) (v : Version) : Bool :=
  if v.major ≠ c.major then v.major < c.major
  else match c.minor with
    | none => false
    | some minor =>
      if v.minor ≠ minor then v.minor < minor
      else match c.patch with
        | none => false
        | some patch => if v.patch ≠ patch then v.patch < patch else PreRelease.isAfter c.pre v.pre

/-- Whether a version is not before the given one and has its major and minor number. -/
def matchesTilde (c : Comparator) (v : Version) : Bool :=
  v.major == c.major && c.minor.all (v.minor == ·) &&
    match c.patch with
    | none => v.pre.isAtLeast c.pre
    | some patch => if v.patch ≠ patch then patch < v.patch else v.pre.isAtLeast c.pre

/-- Whether a version is not before the given one and agrees with it up to its first number that is not zero. -/
def matchesCaret (c : Comparator) (v : Version) : Bool :=
  v.major == c.major &&
    match c.minor, c.patch with
    | none, _ => true
    | some minor, none => if 0 < c.major then minor ≤ v.minor else v.minor == minor
    | some minor, some patch =>
      if 0 < c.major then
        if v.minor ≠ minor then minor < v.minor
        else if v.patch ≠ patch then patch < v.patch
        else v.pre.isAtLeast c.pre
      else if 0 < minor then
        v.minor == minor && (if v.patch ≠ patch then patch < v.patch else v.pre.isAtLeast c.pre)
      else v.minor == minor && v.patch == patch && v.pre.isAtLeast c.pre

/-- Whether a version satisfies a comparator. -/
def accepts (c : Comparator) (v : Version) : Bool :=
  match c.bound with
  | .exact | .wildcard => c.matchesExact v
  | .greater => c.matchesGreater v
  | .greaterEq => c.matchesExact v || c.matchesGreater v
  | .less => c.matchesLess v
  | .lessEq => c.matchesExact v || c.matchesLess v
  | .tilde => c.matchesTilde v
  | .caret => c.matchesCaret v

/-- Whether a comparator names a pre-release of a version's three numbers. -/
def admitsPreRelease (c : Comparator) (v : Version) : Bool :=
  c.major == v.major && c.minor == some v.minor && c.patch == some v.patch && !c.pre.isEmpty

/-- The characters that stand for a number left out. -/
def isWildcard (c : Char) : Bool :=
  c = '*' || c = 'x' || c = 'X'

/-- Whether a text begins with a wildcard. -/
def startsWithWildcard (cs : List Char) : Bool :=
  cs.head?.any isWildcard

/-- Reads a minor or patch number behind its dot; `none` for a wildcard. -/
def numberOrWildcard (part : VersionPart) (cs : List Char) : Except VersionFault (Option Nat × List Char) :=
  if startsWithWildcard cs then .ok (none, cs.tail)
  else (Version.number part cs).map fun r => (some r.1, r.2)

/-- A text without the spaces at its front. -/
def dropSpaces (cs : List Char) : List Char :=
  cs.dropWhile (· == ' ')

/-- The part that a comparator ends with. -/
def lastPart (minorRead patchRead : Bool) (pre : PreRelease) (build : List String) : VersionPart :=
  if !build.isEmpty then .build
  else if !pre.isEmpty then .preRelease
  else if patchRead then .patch
  else if minorRead then .minor
  else .major

/-- Reads a comparator: its operator, its numbers, and the pre-release part and build metadata that may follow three
numbers. Gives the part it ends with and what stands behind it and its spaces. A comparator without an operator is
a caret, or a wildcard if it has one. -/
def read (cs : List Char) : Except VersionFault (Comparator × VersionPart × List Char) := do
  let (bound, cs) := Bound.ofChars cs
  let (major, cs) ← Version.number .major (dropSpaces cs)
  let hasMinor := cs.head? == some '.'
  let (minor, cs) ← if hasMinor then numberOrWildcard .minor cs.tail else pure (none, cs)
  let hasPatch := cs.head? == some '.'
  if hasPatch && minor.isNone && !startsWithWildcard cs.tail then throw .afterWildcard
  let (patch, cs) ← if hasPatch then numberOrWildcard .patch cs.tail else pure (none, cs)
  let (pre, cs) ← if patch.isSome then Version.preRelease cs else pure ([], cs)
  let (build, cs) ← if patch.isSome then Version.buildMetadata cs else pure ([], cs)
  let starred := (hasMinor && minor.isNone) || (hasPatch && patch.isNone)
  let bound := bound.getD (if starred then .wildcard else .caret)
  return ({ bound, major, minor, patch, pre }, lastPart hasMinor hasPatch pre build, dropSpaces cs)

end Comparator

namespace Requirement

/-- The text of a requirement. -/
def text (r : Requirement) : String :=
  if r.comparators.isEmpty then "*" else String.intercalate ", " (r.comparators.map Comparator.text)

/-- Whether a version satisfies a requirement. -/
def accepts (r : Requirement) (v : Version) : Bool :=
  r.comparators.all (·.accepts v) && (v.pre.isEmpty || r.comparators.any (·.admitsPreRelease v))

/-- The fault of a comparator that cannot be read: a lone wildcard among comparators has a fault of its own. -/
def comparatorFault (fault : VersionFault) : List Char → VersionFault
  | [] => fault
  | c :: cs =>
    let rest := Comparator.dropSpaces cs
    if Comparator.isWildcard c && (rest.isEmpty || rest.head? == some ',') then .wildcardNotAlone c else fault

/-- Reads comparators with commas between them, up to a number of them. -/
def readComparators : Nat → List Char → Except VersionFault (List Comparator)
  | 0, _ => .error .tooManyComparators
  | left + 1, cs =>
    match Comparator.read cs with
    | .error fault => .error (comparatorFault fault cs)
    | .ok (c, _, []) => .ok [c]
    | .ok (c, part, d :: rest) =>
      if d = ',' then (readComparators left (Comparator.dropSpaces rest)).map (c :: ·)
      else .error (.expectedComma part d)

/-- Reads a requirement; a lone wildcard is the requirement without a comparator. -/
def parse (text : List Char) : Except VersionFault Requirement :=
  let cs := Comparator.dropSpaces text
  match cs with
  | [] => (readComparators 32 cs).map (⟨·⟩)
  | c :: rest =>
    if Comparator.isWildcard c then
      match Comparator.dropSpaces rest with
      | [] => .ok ⟨[]⟩
      | d :: _ => if d = ',' then .error (.wildcardNotAlone c) else .error .afterWildcard
    else (readComparators 32 cs).map (⟨·⟩)

end Requirement

end ProxyForge
