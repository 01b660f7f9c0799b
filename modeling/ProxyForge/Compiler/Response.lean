import ProxyForge.Json.Record
import ProxyForge.Text.Blank
import ProxyForge.Text.Utf8

/-!
# Compiler responses

What the compiler answers, as far as it matters: its diagnostics, and for each contract the bytecode objects. A
diagnostic of the severity `error` fails the compilation and every other one is a warning, so each diagnostic is
counted on one side.
-/

namespace ProxyForge.Compiler

/-- What the compiler says about a source. -/
structure Diagnostic where
  severity : String
  message : String
  formatted : Option String
  deriving DecidableEq, Repr

/-- A bytecode object: the digits of its bytes, with placeholders where a library has still to be linked. -/
structure Bytecode where
  object : String
  deriving DecidableEq, Repr

/-- The code of a contract: that which deploys it and that which is deployed. -/
structure Code where
  deploying : Option Bytecode
  deployed : Option Bytecode
  deriving DecidableEq, Repr

/-- What the compiler gives for one contract. -/
structure ContractOutput where
  code : Option Code
  deriving DecidableEq, Repr

/-- What the compiler answers; contracts stand under the name of their source unit and their own. -/
structure Response where
  contracts : Option (NameMap (NameMap ContractOutput))
  diagnostics : Option (List Diagnostic)

namespace Diagnostic

/-- Whether a diagnostic fails the compilation. -/
def isError (d : Diagnostic) : Bool :=
  d.severity == "error"

/-- The text of a diagnostic: as the compiler formatted it, without blanks at its end, or else put together from its
severity and message. -/
def text (d : Diagnostic) : String :=
  match d.formatted with
  | some formatted => String.ofList (Text.trimEnd formatted.toList)
  | none => d.severity ++ ": " ++ d.message

/-- Reads a diagnostic. -/
def ofJson? (j : Json) : Option Diagnostic :=
  match j.fields? ⟨["severity", "message", "formattedMessage"], 2, false⟩ with
  | some [severity, message, formatted] => do
    let severity ← Json.required? Json.text? severity
    let message ← Json.required? Json.text? message
    let formatted ← Json.optional? Json.text? formatted
    return { severity, message, formatted }
  | _ => none

end Diagnostic

namespace Bytecode

/-- Reads a bytecode object. -/
def ofJson? (j : Json) : Option Bytecode :=
  match j.fields? ⟨["object"], 1, false⟩ with
  | some [object] => (Json.required? Json.text? object).map (⟨·⟩)
  | _ => none

end Bytecode

namespace Code

/-- Reads the code of a contract. -/
def ofJson? (j : Json) : Option Code :=
  match j.fields? ⟨["bytecode", "deployedBytecode"], 2, false⟩ with
  | some [deploying, deployed] => do
    let deploying ← Json.optional? Bytecode.ofJson? deploying
    let deployed ← Json.optional? Bytecode.ofJson? deployed
    return { deploying, deployed }
  | _ => none

end Code

namespace ContractOutput

/-- Reads what the compiler gives for one contract. -/
def ofJson? (j : Json) : Option ContractOutput :=
  match j.fields? ⟨["evm"], 1, false⟩ with
  | some [code] => (Json.optional? Code.ofJson? code).map (⟨·⟩)
  | _ => none

end ContractOutput

namespace Response

/-- Reads what the compiler answers. -/
def ofJson? (j : Json) : Option Response :=
  match j.fields? ⟨["contracts", "errors"], 0, false⟩ with
  | some [contracts, diagnostics] => do
    let contracts ← Json.optional? (Json.map? (Json.map? ContractOutput.ofJson?)) contracts
    let diagnostics ← Json.optional? (Json.list? Diagnostic.ofJson?) diagnostics
    return { contracts, diagnostics }
  | _ => none

/-- Reads the text of an answer. -/
def ofText? (text : String) : Option Response :=
  (Json.parse text).bind ofJson?

/-- Reads the bytes of an answer; what is no UTF-8 may stand in ignored strings only. -/
def ofBytes? (bytes : List UInt8) : Option Response :=
  (Json.parseScanned (Text.scan bytes)).bind ofJson?

/-- All diagnostics, in their order. -/
def allDiagnostics (r : Response) : List Diagnostic :=
  r.diagnostics.getD []

/-- The texts of the diagnostics that fail the compilation. -/
def errorMessages (r : Response) : List String :=
  (r.allDiagnostics.filter Diagnostic.isError).map Diagnostic.text

/-- The diagnostics that do not fail the compilation. -/
def warnings (r : Response) : List Diagnostic :=
  r.allDiagnostics.filter fun d => !d.isError

/-- The contract of a name in a source unit. -/
def contract? (r : Response) (file name : String) : Option ContractOutput :=
  r.contracts.bind fun files => (files.get? file).bind fun contracts => contracts.get? name

/-- The paths `file:name` of all contracts, in the order of their source units and names. -/
def contractPaths (r : Response) : List String :=
  match r.contracts with
  | none => []
  | some files => files.entries.flatMap fun f => f.2.names.map fun name => f.1 ++ ":" ++ name

end Response

end ProxyForge.Compiler
