import ProxyForge.Compiler.Process
import ProxyForge.Compiler.Session
import ProxyForge.Contract.Proxy
import ProxyForge.Payload
import ProxyForge.Settings

/-!
# The deployer

From a deployment to its payload: the library source is read, the privileges are placed and the proxy is written, both
sources are compiled, and the deploying bytecode of the proxy becomes the payload. `prepare` and `complete` are the
two halves around the compilation, for callers that submit the request on their own; `deploy` does it all. The
library is read first, so a missing library is told before a missing compiler.
-/

namespace ProxyForge

open Compiler

/-- What deployments are made with; it holds nothing that belongs to one deployment. -/
structure Deployer (σ : Type) where
  libraryPath : String
  hash : Storage.Hash
  compiler : Setup σ

namespace Deployer

variable {σ : Type}

/-- The deployer of settings, a hash and a toolchain. -/
def ofSettings (settings : Settings) (hash : Storage.Hash) (toolchain : Toolchain σ) : Deployer σ where
  libraryPath := settings.libraryPath
  hash := hash
  compiler := { toolchain, expected := settings.expectedVersion }

/-- The deployer that runs the executable of its settings on a host; `explain` is what the reader of JSON says of an
answer that it cannot read. -/
def onHost (settings : Settings) (hash : Storage.Hash) (host : Host) (explain : List UInt8 → String) :
    Deployer (List Invocation) :=
  ofSettings settings hash (.process host explain settings.executable)

/-- The slots and levels of a deployment's privileges. -/
def privilegeWrites (d : Deployer σ) (deployment : Deployment) : List (Word × Word) :=
  Proxy.privilegeWrites d.hash deployment

/-- The text of the library. -/
def readLibrary (d : Deployer σ) (files : Files) : Except Failure String :=
  match files.readText d.libraryPath with
  | .ok text => .ok text
  | .error fault => .error (.library d.libraryPath fault)

/-- The source units of a deployment, given the text of the library. -/
def sourceUnits (d : Deployer σ) (deployment : Deployment) (library : String) : NameMap String :=
  Proxy.units deployment (d.privilegeWrites deployment) library

/-- Reads the library, writes the proxy, and gives both source units. -/
def sources (d : Deployer σ) (files : Files) (deployment : Deployment) : Action σ (NameMap String) := do
  let library ← Action.ofExcept (d.readLibrary files)
  let writes := d.privilegeWrites deployment
  Action.log .debug s!"Derived {writes.length} privilege slots"
  let source := Proxy.source deployment writes
  Action.log .debug s!"Composed `{Proxy.sourceName}`: {Text.utf8Length source.toList} bytes"
  Action.log .trace source
  return d.sourceUnits deployment library

/-- Builds the compiler request of a deployment, once the expected version has been compared with the pragmas. -/
def prepare (d : Deployer σ) (files : Files) (deployment : Deployment) : Action σ Request := do
  let sources ← d.sources files deployment
  Action.ofExcept (d.compiler.checkExpected sources Proxy.sourceName Proxy.contractName)
  return .ofSources sources

/-- Makes the payload of the compiler's answer to a request of `prepare`. -/
def complete (response : Response) : Action σ Payload := do
  let artifact ← extract response Proxy.sourceName Proxy.contractName
  Action.ofExcept (Payload.ofArtifact artifact)

/-- Makes the payload of a deployment. -/
def deploy (d : Deployer σ) (files : Files) (deployment : Deployment) : Action σ Payload := do
  let sources ← d.sources files deployment
  Action.log .debug s!"Compiling `{contractPath Proxy.sourceName Proxy.contractName}`"
  let artifact ← d.compiler.compile sources Proxy.sourceName Proxy.contractName
  let payload ← Action.ofExcept (Payload.ofArtifact artifact)
  Action.log .debug s!"Built the deployment payload of {artifact.bytecode.length} bytes"
  return payload

end Deployer

end ProxyForge
