import ProxyForge.Failure
import ProxyForge.Json.Record
import ProxyForge.Version.Basic

/-!
# Settings

Which compiler is run, where the library source lies, and which compiler version is expected. Settings are read
strictly from a JSON record whose fields all have defaults: a field under another name is refused, and so is a
version that is none. How the reader of JSON words what it refuses is up to that reader.
-/

namespace ProxyForge

/-- The settings of a deployer. -/
structure Settings where
  executable : String
  libraryPath : String
  expectedVersion : Option Version
  deriving DecidableEq, Repr

namespace Settings

/-- The compiler that is run if none is set. -/
def defaultExecutable : String := "solc"

/-- The library source that is read if none is set. -/
def defaultLibraryPath : String := "./contracts/libs/SafeERC20.sol"

/-- The settings without any set. -/
def default : Settings :=
  { executable := defaultExecutable, libraryPath := defaultLibraryPath, expectedVersion := none }

/-- The version of a string. -/
def version? (j : Json) : Option Version :=
  j.text?.bind fun text => (Version.parse text).toOption

/-- A text field with a default. -/
def textOr? (default : String) : Option Json → Option String
  | none => some default
  | some value => value.text?

/-- Reads the JSON value of settings. -/
def ofJson? (j : Json) : Option Settings :=
  match j.fields? ⟨["solc_executable", "library_path", "solc_version"], 0, true⟩ with
  | some [executable, libraryPath, expectedVersion] => do
    let executable ← textOr? defaultExecutable executable
    let libraryPath ← textOr? defaultLibraryPath libraryPath
    let expectedVersion ← Json.optional? version? expectedVersion
    return { executable, libraryPath, expectedVersion }
  | _ => none

/-- Reads the bytes of settings. -/
def ofBytes? (bytes : List UInt8) : Option Settings :=
  (Json.parseScanned (Text.scan bytes)).bind ofJson?

/-- The settings of a file that has been opened; there are none if the reading breaks off. -/
def ofContents? (c : Contents) : Option Settings :=
  if c.brokenBy.isSome then none else ofBytes? c.bytes

/-- Reads settings from a file; `explain` is what the reader of JSON says of contents that are no settings. -/
def read (files : Files) (explain : Contents → String) (path : String) : Except Failure Settings :=
  match files.contents path with
  | .error fault => .error (.settings path (.unopened fault))
  | .ok contents => (ofContents? contents).elim (.error (.settings path (.malformed (explain contents)))) .ok

end Settings

end ProxyForge
