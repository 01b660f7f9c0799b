import ProxyForge.Compiler.Response
import ProxyForge.Failure

/-!
# Artifacts

The bytes of one contract, taken out of what the compiler answers. A diagnostic of the severity `error` outweighs
everything else; then the contract, its code and its deploying bytecode have to be there, and the bytecode objects
have to be digits of bytes without a placeholder in them.
-/

namespace ProxyForge.Compiler

/-- The bytes of a contract. -/
structure Artifact where
  contract : String
  bytecode : List UInt8
  deployed : Option (List UInt8)
  deriving DecidableEq, Repr

/-- Why a bytecode object has no bytes. -/
inductive BytecodeFault where
  | unlinked (offset : Nat)
  | notHex (fault : Hex.Fault)
  deriving DecidableEq, Repr

/-- Why there is no artifact of a contract. -/
inductive ExtractionFault where
  | reported (messages : List String)
  | noContract (found : List String)
  | noCode
  | noBytecode
  | badBytecode (fault : BytecodeFault)
  deriving DecidableEq, Repr

namespace BytecodeFault

/-- The wording of a fault. -/
def message : BytecodeFault → String
  | unlinked offset => s!"The bytecode contains an unlinked library placeholder at offset {offset}"
  | notHex fault => s!"The bytecode is invalid: {fault.message}"

end BytecodeFault

namespace ExtractionFault

/-- The messages of a fault. -/
def messages : ExtractionFault → List String
  | reported messages => messages
  | noContract found =>
    ["The contract not found in the output. Found contracts: [" ++ String.intercalate ", " found ++ "]"]
  | noCode => ["EVM object of the contract not found"]
  | noBytecode => ["EVM bytecode of the contract not found"]
  | badBytecode fault => [fault.message]

end ExtractionFault

namespace Bytecode

/-- The number of bytes in front of the first placeholder of a text, which begins with two underscores. -/
def placeholder? : List Char → Option Nat
  | [] => none
  | c :: cs =>
    if c = '_' && cs.head? == some '_' then some 0 else (placeholder? cs).map (c.utf8Size + ·)

/-- The bytes of a bytecode object, with or without `0x` in front. -/
def decode (b : Bytecode) : Except BytecodeFault (List UInt8) :=
  let digits := Literal.withoutMark b.object.toList
  match placeholder? digits with
  | some offset => .error (.unlinked offset)
  | none =>
    match Hex.decode digits with
    | .ok bytes => .ok bytes
    | .error fault => .error (.notHex fault)

/-- The bytes of a bytecode object that may be missing. -/
def decodeOptional : Option Bytecode → Except BytecodeFault (Option (List UInt8))
  | none => .ok none
  | some b => b.decode.map some

end Bytecode

/-- The path of a contract. -/
def contractPath (file name : String) : String :=
  file ++ ":" ++ name

namespace Response

/-- The bytes that deploy a contract and those that are deployed. -/
def bytes (r : Response) (file name : String) : Except ExtractionFault (List UInt8 × Option (List UInt8)) :=
  if !r.errorMessages.isEmpty then .error (.reported r.errorMessages)
  else match r.contract? file name with
    | none => .error (.noContract r.contractPaths)
    | some contract =>
      match contract.code with
      | none => .error .noCode
      | some code =>
        match code.deploying with
        | none => .error .noBytecode
        | some deploying =>
          match deploying.decode, Bytecode.decodeOptional code.deployed with
          | .error fault, _ => .error (.badBytecode fault)
          | .ok _, .error fault => .error (.badBytecode fault)
          | .ok bytecode, .ok deployed => .ok (bytecode, deployed)

/-- The artifact of a contract. -/
def artifact (r : Response) (file name : String) : Except Failure Artifact :=
  let path := contractPath file name
  match r.bytes file name with
  | .error fault => .error (.compilation path fault.messages)
  | .ok (bytecode, deployed) => .ok { contract := path, bytecode, deployed }

end Response

end ProxyForge.Compiler
