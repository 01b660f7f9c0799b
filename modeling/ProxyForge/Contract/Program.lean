import ProxyForge.Word

/-!
# Contract programs

A program is what a contract does before it is written as source text: the instructions its constructor runs once
and the instructions its fallback function runs on every call.
-/

namespace ProxyForge.Contract

/-- What is stored into a slot. -/
inductive Operand where
  | integer (value : Word)
  | address (value : Address)
  deriving DecidableEq, Repr

/-- One step of a contract. -/
inductive Instruction where
  /-- Stores a value directly into a slot. -/
  | store (slot : Word) (value : Operand)
  /-- Sends an amount of a token from the contract to a recipient, by the safe transfer of the library. -/
  | transfer (token recipient : Address) (amount : Word)
  /-- Hands the whole call over to another contract's code, with some gas kept back, and ends as that call ends. -/
  | forward (target : Address) (gasReserve : UInt64)
  deriving DecidableEq, Repr

/-- What a contract does. -/
structure Program where
  name : String
  constructor : List Instruction
  fallback : List Instruction
  deriving DecidableEq, Repr

/-- Whether an instruction is a store. -/
def Instruction.isStore : Instruction → Bool
  | store _ _ => true
  | _ => false

/-- The stores of the constructor, in the order they are executed. -/
def Program.stores (p : Program) : List Instruction :=
  p.constructor.filter Instruction.isStore

theorem Instruction.isStore_iff {i : Instruction} : i.isStore = true ↔ ∃ slot value, i = .store slot value := by
  cases i <;> simp [isStore]

end ProxyForge.Contract
