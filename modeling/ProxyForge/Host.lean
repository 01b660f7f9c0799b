import ProxyForge.Files

/-!
# Hosts

What a machine offers to a program that runs other programs: it finds the path of an executable and runs what is at a
path. An outcome says how far a run came, and an invocation what the process saw of it.
-/

namespace ProxyForge

/-- What is known of a process that has ended: it gave an exit code, or a signal ended it. -/
inductive ExitStatus where
  | exited (code : UInt8)
  | killed (signal : Nat)
  deriving DecidableEq, Repr

/-- How a process ended: its status and what it wrote. -/
structure ProcessEnd where
  status : ExitStatus
  stdout : List UInt8
  stderr : List UInt8
  deriving DecidableEq, Repr

/-- What comes of running an executable. -/
inductive Outcome where
  | notStarted (fault : SystemFault)
  | inputRefused (fault : SystemFault)
  | outputLost (fault : SystemFault)
  | ended (how : ProcessEnd)
  deriving DecidableEq, Repr

/-- A call of an executable, and the input that it read. -/
structure Invocation where
  arguments : List String
  input : Option String
  deriving DecidableEq, Repr

/-- A machine: it finds the path of an executable or says why there is none, and runs what is at a path with arguments
and an input and tells what the process saw of them, if it was started. -/
structure Host where
  locate : String → Except String String
  execute : String → List String → String → Outcome × Option Invocation

/-- Whether a process succeeded. -/
def ProcessEnd.succeeded (e : ProcessEnd) : Bool :=
  e.status == .exited 0

theorem ProcessEnd.succeeded_iff {e : ProcessEnd} : e.succeeded = true ↔ e.status = .exited 0 :=
  beq_iff_eq

end ProxyForge
