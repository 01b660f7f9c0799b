import ProxyForge.Json.Tree
import ProxyForge.NameMap

/-!
# Compiler requests

What is submitted to the compiler: the source units by their names, the outputs that are asked for and the
optimizer. Every request asks for all outputs of all contracts, optimised for two hundred runs. `text` is the
compact JSON text that the compiler reads.
-/

namespace ProxyForge.Compiler

/-- How the compiler optimises. -/
structure Optimizer where
  enabled : Bool
  runs : Nat
  deriving DecidableEq, Repr

/-- What is submitted to the compiler. -/
structure Request where
  sources : NameMap String
  optimizer : Optimizer

/-- The runs that code is optimised for. -/
def optimizerRuns : Nat := 200

namespace Request

/-- The request to compile source units. -/
def ofSources (sources : NameMap String) : Request :=
  { sources, optimizer := { enabled := true, runs := optimizerRuns } }

/-- The selection of every output of every contract of every source unit. -/
def everyOutput : Json :=
  .ofMembers [("*", .ofMembers [("*", .array [.ofString "*"])])]

/-- The JSON value of a request. -/
def toJson (r : Request) : Json :=
  .ofMembers
    [("language", .ofString "Solidity"),
     ("sources", .ofMembers (r.sources.entries.map fun e => (e.1, .ofMembers [("content", .ofString e.2)]))),
     ("settings", .ofMembers
       [("outputSelection", everyOutput),
        ("optimizer", .ofMembers
          [("enabled", .bool r.optimizer.enabled), ("runs", .number (.ofNat r.optimizer.runs))])])]

/-- The text that the compiler reads. -/
def text (r : Request) : String :=
  r.toJson.compact

end Request

end ProxyForge.Compiler
