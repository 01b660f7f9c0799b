import ProxyForge.Compiler.Artifact

/-!
# Deployment payloads

The creation data of a deployment transaction: the deploying bytecode of an artifact in hexadecimal digits behind
`0x`. An artifact without bytecode has none. As JSON a payload is an object with the field `data`.
-/

namespace ProxyForge

/-- The data of a deployment transaction. -/
structure Payload where
  data : String
  deriving DecidableEq, Repr

namespace Payload

/-- The payload that deploys an artifact. -/
def ofArtifact (a : Compiler.Artifact) : Except Failure Payload :=
  if a.bytecode.isEmpty then .error (.emptyBytecode a.contract)
  else .ok { data := "0x" ++ String.ofList (Hex.encode a.bytecode) }

/-- The JSON value of a payload. -/
def toJson (p : Payload) : Json :=
  .ofMembers [("data", .ofString p.data)]

/-- The JSON text of a payload. -/
def text (p : Payload) : String :=
  p.toJson.compact

/-- Reads the JSON value of a payload. -/
def ofJson? (j : Json) : Option Payload :=
  match j.fields? ⟨["data"], 1, false⟩ with
  | some [data] => (Json.required? Json.text? data).map (⟨·⟩)
  | _ => none

/-- Reads the JSON text of a payload. -/
def ofText? (text : String) : Option Payload :=
  (Json.parse text).bind ofJson?

end Payload

end ProxyForge
