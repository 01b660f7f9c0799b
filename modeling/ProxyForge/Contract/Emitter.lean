import ProxyForge.Contract.Source

/-!
# Emitting a program

The source text written step by step. An emitter holds the text written so far and the number of open blocks, and
indents every line by that number. The number may fall below zero no more than an instruction may be looked up behind
the last one: either would stop the emitter with a fault. A body is gone through by an index that moves over a run of
stores at once and over any other instruction alone.
-/

namespace ProxyForge.Contract

/-- What has been written, and how many blocks are open. -/
structure Emitter where
  text : String
  depth : Nat
  deriving DecidableEq, Repr

/-- Why an emitter stops. -/
inductive EmitterFault where
  /-- A block is closed where none is open. -/
  | nothingOpen
  /-- Instructions are looked up where there are none. -/
  | outOfRange
  deriving DecidableEq, Repr

/-- A step of an emitter. -/
abbrev Emission (α : Type) := StateT Emitter (Except EmitterFault) α

namespace Emission

/-- Writes a text as it is. -/
def write (text : String) : Emission Unit :=
  modify fun e => { e with text := e.text ++ text }

/-- Writes an indented line. -/
def line (text : String) : Emission Unit := do
  write (Contract.line (← get).depth text ++ "\n")

/-- Writes an empty line. -/
def blank : Emission Unit :=
  write "\n"

/-- Indents what follows by one tab more. -/
def indent : Emission Unit :=
  modify fun e => { e with depth := e.depth + 1 }

/-- Indents what follows by one tab less. -/
def unindent : Emission Unit := do
  match (← get).depth with
  | 0 => throw .nothingOpen
  | depth + 1 => modify fun e => { e with depth }

/-- The text of the line that opens a block, behind the header of the block if it has one. -/
def opening (header : String) : String :=
  if header.isEmpty then "\x7b" else header ++ " \x7b"

/-- Opens a block. -/
def openBlock (header : String) : Emission Unit := do
  line (opening header)
  indent

/-- Closes the innermost block. -/
def closeBlock : Emission Unit := do
  unindent
  line "\x7d"

/-- Writes a block. -/
def enclose (header : String) (inside : Emission Unit) : Emission Unit := do
  openBlock header
  inside
  closeBlock

/-- Writes the lines of one instruction. -/
def instruction : Instruction → Emission Unit
  | .store slot value => line (Instruction.storeText slot value)
  | .transfer token recipient amount => line (Instruction.transferText token recipient amount)
  | .forward target gasReserve => do
    line (Instruction.targetText target)
    enclose "assembly" ((Instruction.delegation gasReserve).forM line)

/-- The instructions from one place up to another. -/
def stretch (is : List Instruction) (start stop : Nat) : Emission (List Instruction) :=
  if start ≤ stop ∧ stop ≤ is.length then pure ((is.take stop).drop start) else throw .outOfRange

/-- The instruction at a place. -/
def instructionAt (is : List Instruction) (index : Nat) : Emission Instruction :=
  match is[index]? with
  | some i => pure i
  | none => throw .outOfRange

/-- Writes the instructions from a place on, a run of stores in one block. -/
def bodyFrom (is : List Instruction) (index : Nat) : Emission Unit := do
  if index < is.length then
    let rest ← stretch is index is.length
    let stores := (rest.takeWhile Instruction.isStore).length
    if 0 < stores then
      enclose "assembly" do
        (← stretch is index (index + stores)).forM instruction
      bodyFrom is (index + stores)
    else
      instruction (← instructionAt is index)
      bodyFrom is (index + 1)
termination_by is.length - index

/-- Writes a function body. -/
def body (is : List Instruction) : Emission Unit :=
  bodyFrom is 0

/-- Writes the constructor. -/
def constructor (is : List Instruction) : Emission Unit := do
  line "constructor()"
  indent
  line "public"
  unindent
  enclose "" (body is)

/-- Writes the fallback function. -/
def fallback (is : List Instruction) : Emission Unit := do
  line "function () external"
  enclose "" (body is)

/-- Writes the whole source unit of a program. -/
def program (p : Program) : Emission Unit := do
  line ("pragma solidity " ++ languageVersion ++ ";")
  blank
  line ("import \"" ++ librarySourceName ++ "\";")
  blank
  enclose ("contract " ++ p.name) do
    Storage.declarations.forM line
    blank
    constructor p.constructor
    if !p.fallback.isEmpty then
      blank
      fallback p.fallback

end Emission

/-- Writes a program from nothing on, and tells what has been written and how many blocks are left open. -/
def emit (p : Program) : Except EmitterFault Emitter :=
  (fun run => run.2) <$> (Emission.program p).run { text := "", depth := 0 }

end ProxyForge.Contract
