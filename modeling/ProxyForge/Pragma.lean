import ProxyForge.NameMap
import ProxyForge.Text.Blank
import ProxyForge.Version.Requirement

/-!
# Version pragmas of sources

A source says in a `pragma solidity` line which compiler versions may compile it. The words behind the two are
comparators; operators that stand apart from their versions are joined to them, and a version without an operator
is meant exactly. `check` compares a version with the first such line of each source, in the order of the
sources' names; a source without one is compiled by every version.
-/

namespace ProxyForge

/-- Why a version may not compile some source. -/
inductive PragmaFault where
  | invalid (requirement source : String) (fault : VersionFault)
  | unsatisfied (version : Version) (requirement : Requirement) (source : String)
  deriving DecidableEq, Repr

namespace PragmaFault

/-- The wording of a fault. -/
def message : PragmaFault → String
  | invalid requirement source fault => s!"Invalid pragma `{requirement}` in `{source}`: {fault.message}"
  | unsatisfied version requirement source =>
    s!"The compiler version {version.text} does not satisfy the pragma `{requirement.text}` in `{source}`"

end PragmaFault

namespace Pragma

/-- The characters of the operators of comparators. -/
def isOperator (c : Char) : Bool :=
  c = '^' || c = '~' || c = '>' || c = '<' || c = '='

/-- The comparators of the words of a pragma; `operator` are the operator characters in front that have no version
yet. Semicolons at the end of a word do not count. -/
def comparators (operator : List Char) : List (List Char) → List (List Char)
  | [] => []
  | word :: words =>
    let word := Text.dropEndWhile (· == ';') word
    let operator := operator ++ word.takeWhile isOperator
    let version := word.dropWhile isOperator
    if version.isEmpty then comparators operator words
    else (if operator.isEmpty then '=' :: version else operator ++ version) :: comparators [] words

/-- The text of the requirement of a line, if the line is a version pragma. -/
def requirement? (line : List Char) : Option (List Char) :=
  match Text.words line with
  | first :: second :: words =>
    if first = "pragma".toList ∧ second = "solidity".toList then
      some (List.intercalate [','] (comparators [] words))
    else none
  | _ => none

/-- The text of the requirement of the first version pragma of a source. -/
def ofSource? (source : String) : Option (List Char) :=
  (Text.lines source.toList).findSome? requirement?

/-- Compares a version with the pragma of one source. -/
def checkSource (version : Version) (name source : String) : Except PragmaFault Unit :=
  match ofSource? source with
  | none => .ok ()
  | some text =>
    match Requirement.parse text with
    | .error fault => .error (.invalid (String.ofList text) name fault)
    | .ok requirement =>
      if requirement.accepts version then .ok () else .error (.unsatisfied version requirement name)

/-- Compares a version with the pragmas of sources, up to the first that does not admit it. -/
def checkEntries (version : Version) : List (String × String) → Except PragmaFault Unit
  | [] => .ok ()
  | (name, source) :: rest =>
    match checkSource version name source with
    | .ok () => checkEntries version rest
    | .error fault => .error fault

/-- Compares a version with the pragmas of sources, in the order of their names. -/
def check (version : Version) (sources : NameMap String) : Except PragmaFault Unit :=
  checkEntries version sources.entries

end Pragma

end ProxyForge
