import ProxyForge.Compiler.Toolchain
import ProxyForge.Host
import ProxyForge.Json.Indented
import ProxyForge.Text.DecimalDigit
import ProxyForge.Text.Utf8

/-!
# The compiler as a process

The toolchain that runs an executable: a request is written to its standard input and its answer read from its
standard output. The host finds the executable and runs it; what comes of a run is judged by `responseOf` and
`versionOf`, functions of the outcome alone. Only the error output counts when the process fails, and only the
standard output when it succeeds.
-/

namespace ProxyForge.Compiler

/-- Why an executable does not do its work. -/
inductive ProcessFault where
  | notLocated (reason : String)
  | notStarted (fault : SystemFault)
  | inputRefused (fault : SystemFault)
  | outputLost (fault : SystemFault)
  | failed (stderr : List UInt8)
  | unreadable (details : String) (stdout : List UInt8)
  | versionFailed (stderr : List UInt8)
  | noVersion (text : String)
  | badVersion (found : String) (fault : VersionFault)
  deriving DecidableEq, Repr

/-- An output as it is shown to a reader: written anew if it is JSON, otherwise as it is. -/
def shownOutput (stdout : List UInt8) : String :=
  (Json.indentedText? (Text.scan stdout)).getD (Text.decodeLossy stdout)

namespace ProcessFault

/-- The wording of a fault. -/
def message (executable : String) : ProcessFault → String
  | notLocated reason => s!"The `{executable}` executable not found in $\x7bPATH\x7d: {reason}"
  | notStarted fault => s!"{executable} subprocess spawning error: {fault.detail}"
  | inputRefused fault => s!"{executable} stdin writing error: {fault.detail}"
  | outputLost fault => s!"{executable} subprocess output error: {fault.detail}"
  | failed stderr => s!"{executable} error: {Text.decodeLossy stderr}"
  | unreadable details stdout => s!"{executable} subprocess output parsing error: {details}\n{shownOutput stdout}"
  | versionFailed stderr => s!"{executable} version getting error: {Text.decodeLossy stderr}"
  | noVersion text => s!"Version not found in the output:\n{text}"
  | badVersion found fault => s!"Version `{found}` parsing error: {fault.message}"

end ProcessFault

/-- The answer to a request, judged by the outcome; `explain` is what the reader of JSON says of an output that is no
response. -/
def responseOf (explain : List UInt8 → String) : Outcome → Except ProcessFault Response
  | .notStarted fault => .error (.notStarted fault)
  | .inputRefused fault => .error (.inputRefused fault)
  | .outputLost fault => .error (.outputLost fault)
  | .ended how =>
    if !how.succeeded then .error (.failed how.stderr)
    else (Response.ofBytes? how.stdout).elim (.error (.unreadable (explain how.stdout) how.stdout)) .ok

/-- Three runs of digits with dots between them, at the front of a text. -/
def dottedDigits? (cs : List Char) : Option (List Char) :=
  let major := cs.takeWhile Text.isDecimalDigit
  match cs.dropWhile Text.isDecimalDigit with
  | '.' :: cs =>
    let minor := cs.takeWhile Text.isDecimalDigit
    match cs.dropWhile Text.isDecimalDigit with
    | '.' :: cs =>
      let patch := cs.takeWhile Text.isDecimalDigit
      if major.isEmpty || minor.isEmpty || patch.isEmpty then none
      else some (major ++ '.' :: minor ++ '.' :: patch)
    | _ => none
  | _ => none

/-- The label in front of a version. -/
def versionLabel : List Char := "Version: ".toList

/-- The digits behind the first label that has such digits behind it. -/
def labelledDigits? : List Char → Option (List Char)
  | [] => none
  | c :: cs =>
    let here := if versionLabel.isPrefixOf (c :: cs) then dottedDigits? ((c :: cs).drop versionLabel.length) else none
    match here with
    | some digits => some digits
    | none => labelledDigits? cs

/-- The version in what a compiler says about itself. -/
def reportedVersion (text : String) : Except ProcessFault Version :=
  match labelledDigits? text.toList with
  | none => .error (.noVersion text)
  | some digits =>
    match Version.parse (String.ofList digits) with
    | .ok version => .ok version
    | .error fault => .error (.badVersion (String.ofList digits) fault)

/-- The answer to a call for the version, judged by the outcome. Whatever keeps the call from its end is told as if it
had not been started. -/
def versionOf : Outcome → Except ProcessFault Version
  | .notStarted fault | .inputRefused fault | .outputLost fault => .error (.notStarted fault)
  | .ended how =>
    if !how.succeeded then .error (.versionFailed how.stderr)
    else reportedVersion (Text.decodeLossy how.stdout)

/-- The path of an executable. -/
def locate (host : Host) (executable : String) : Except ProcessFault String :=
  match host.locate executable with
  | .error reason => .error (.notLocated reason)
  | .ok path => .ok path

/-- The record of a compilation that is about to be run. -/
def runRecord (executable : String) (request : Request) : LogRecord :=
  { level := .debug
    text := s!"Running `{executable} --standard-json` on {request.sources.size} source units" }

/-- A fault as the only cause. -/
def asCauses {α : Type} (executable : String) : Except ProcessFault α → Except Causes α
  | .ok a => .ok a
  | .error fault => .error (.only (fault.message executable))

namespace Toolchain

/-- The toolchain that runs an executable of a host; its state are the calls it has made. -/
def process (host : Host) (explain : List UInt8 → String) (executable : String) : Toolchain (List Invocation) where
  compile request made :=
    match Compiler.locate host executable with
    | .error fault => { result := asCauses executable (.error fault), log := [], state := made }
    | .ok path =>
      let (outcome, seen) := host.execute path ["--standard-json"] request.text
      { result := asCauses executable (responseOf explain outcome)
        log := [runRecord executable request]
        state := made ++ seen.toList }
  version made :=
    match Compiler.locate host executable with
    | .error fault => { result := asCauses executable (.error fault), log := [], state := made }
    | .ok path =>
      let (outcome, seen) := host.execute path ["--version"] ""
      { result := asCauses executable (versionOf outcome), log := [], state := made ++ seen.toList }

end Toolchain

end ProxyForge.Compiler
