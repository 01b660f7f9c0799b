import ProxyForge.Files
import ProxyForge.Literal

/-!
# Failures

The five ways in which a deployment payload is not produced: a value cannot be read, the library source cannot be
read, the settings cannot be read, the contract does not compile, or it compiles to nothing.
-/

namespace ProxyForge

/-- Why settings cannot be read. -/
inductive SettingsFault where
  | unopened (fault : SystemFault)
  | malformed (details : String)
  | reported (text : String)
  deriving DecidableEq, Repr

/-- Why a payload is not produced. -/
inductive Failure where
  | encoding (fault : EncodingFault)
  | library (path : String) (fault : FileFault)
  | settings (path : String) (fault : SettingsFault)
  | compilation (contract : String) (messages : List String)
  | emptyBytecode (contract : String)
  deriving DecidableEq, Repr

namespace SettingsFault

/-- The wording of a fault. -/
def message : SettingsFault → String
  | unopened fault => s!"opening error: {fault.sentence}"
  | malformed details => s!"parsing error: {details}"
  | reported text => text

end SettingsFault

namespace Failure

/-- The wording of a failure. -/
def message : Failure → String
  | encoding fault => s!"Encoding error: {fault.message}"
  | library path fault => s!"Reading library source {Text.quoted path}: {fault.message}"
  | settings path fault => s!"Reading config {Text.quoted path}: {fault.message}"
  | compilation contract messages => s!"Compiling `{contract}`: " ++ String.intercalate "\n" messages
  | emptyBytecode contract => s!"The bytecode of `{contract}` is empty"

end Failure

end ProxyForge
