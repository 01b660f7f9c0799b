import ProxyForge.Text.Utf8

/-!
# Files

The files of a machine, as far as a program sees them: a path is opened and what is there is read to its end. The
system may refuse to open it and may break off the reading. Which paths lead to which files is the machine's own
affair, so everything here holds for any of them.
-/

namespace ProxyForge

/-- What an operating system says when it refuses something: in a sentence, and in full with the number and the kind of
the fault. -/
structure SystemFault where
  sentence : String
  detail : String
  deriving DecidableEq, Repr

/-- What reading an open file gives: its bytes, up to a fault if one breaks off the reading. -/
structure Contents where
  bytes : List UInt8
  brokenBy : Option SystemFault
  deriving DecidableEq, Repr

/-- The files of a machine at one time: what comes of opening a path. -/
structure Files where
  contents : String → Except SystemFault Contents

/-- Why a file gives no text. -/
inductive FileFault where
  | refused (fault : SystemFault)
  | notText
  deriving DecidableEq, Repr

namespace FileFault

/-- The wording of a fault. -/
def message : FileFault → String
  | refused fault => fault.sentence
  | notText => "stream did not contain valid UTF-8"

end FileFault

namespace Contents

/-- The text of a file. A fault that breaks off the reading outweighs bytes that are no text. -/
def text (c : Contents) : Except FileFault String :=
  match c.brokenBy with
  | some fault => .error (.refused fault)
  | none => (Text.decode? c.bytes).elim (.error .notText) .ok

end Contents

namespace Files

/-- The text of the file at a path. -/
def readText (files : Files) (path : String) : Except FileFault String :=
  match files.contents path with
  | .error fault => .error (.refused fault)
  | .ok contents => contents.text

end Files

end ProxyForge
