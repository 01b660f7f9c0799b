import ProxyForge.Checksum
import ProxyForge.Contract.Program
import ProxyForge.Storage

/-!
# The source text of a program

A program is written as the lines of one source unit, each indented by a tab per open block. Stores that follow
one another share one `assembly` block, so that they are executed in the order of the instructions: `segments`
cuts a list of instructions into the longest runs of stores and the single other instructions, and
`flatten_segments` says that nothing is lost or moved by it.
-/

namespace ProxyForge.Contract

/-- The versions of the language that the source is written for. -/
def languageVersion : String := "^0.5.6"

/-- The name of the library of safe transfers. -/
def libraryName : String := "SafeERC20"

/-- The name of the source unit that holds the library. -/
def librarySourceName : String := "SafeERC20.sol"

/-- A line inside a number of blocks. -/
def line (depth : Nat) (text : String) : String :=
  String.ofList (List.replicate depth '\t') ++ text

/-- The lines of a block: its header with the opening brace, the lines inside, and the closing brace. -/
def block (depth : Nat) (header : String) (inside : List String) : List String :=
  line depth (header ++ "\x7b") :: inside ++ [line depth "\x7d"]

namespace Operand

/-- The literal of a stored value: an integer in decimal, an address in digits. -/
def literal : Operand → String
  | integer value => value.decimal
  | address value => "0x" ++ value.hex

end Operand

namespace Instruction

/-- The line of a store, as it stands in an assembly block. -/
def storeText (slot : Word) (value : Operand) : String :=
  "sstore(0x" ++ slot.hex ++ ", " ++ value.literal ++ ")"

/-- The line of a token transfer. -/
def transferText (token recipient : Address) (amount : Word) : String :=
  libraryName ++ ".transfer(address(" ++ token.checksummed ++ "), address(" ++ recipient.checksummed ++
    "), uint256(" ++ amount.decimal ++ "));"

/-- The line that names the contract a call is handed over to. -/
def targetText (target : Address) : String :=
  "address to = address(" ++ target.checksummed ++ ");"

/-- The lines that hand over a call: the call data is copied in, the call is delegated, and its return data is
returned or reverted with as a whole. -/
def delegation (gasReserve : UInt64) : List String :=
  ["calldatacopy(0, 0, calldatasize())",
   "let result := delegatecall(sub(gas(), " ++ toString gasReserve.toNat ++ "), to, 0, calldatasize(), 0, 0)",
   "returndatacopy(0, 0, returndatasize())",
   "switch result",
   "case 0 \x7b revert(0, returndatasize()) \x7d",
   "default \x7b return(0, returndatasize()) \x7d"]

/-- The lines of one instruction. -/
def lines (depth : Nat) : Instruction → List String
  | store slot value => [line depth (storeText slot value)]
  | transfer token recipient amount => [line depth (transferText token recipient amount)]
  | forward target gasReserve =>
    line depth (targetText target) ::
      block depth "assembly " ((delegation gasReserve).map (line (depth + 1)))

end Instruction

/-- The longest runs of stores of a list of instructions, and the other instructions each on its own. -/
def segments : List Instruction → List (List Instruction)
  | [] => []
  | i :: is =>
    match segments is with
    | (j :: run) :: rest =>
      if i.isStore && j.isStore then (i :: j :: run) :: rest else [i] :: (j :: run) :: rest
    | rest => [i] :: rest

/-- The lines of a segment: a run of stores in an assembly block, another instruction as it is. -/
def segmentLines (depth : Nat) (segment : List Instruction) : List String :=
  if segment.all Instruction.isStore then
    block depth "assembly " (segment.flatMap (Instruction.lines (depth + 1)))
  else segment.flatMap (Instruction.lines depth)

/-- The lines of a function body. -/
def body (depth : Nat) (instructions : List Instruction) : List String :=
  (segments instructions).flatMap (segmentLines depth)

namespace Program

/-- The lines of the constructor. -/
def constructorLines (p : Program) : List String :=
  line 1 "constructor()" :: line 2 "public" :: block 1 "" (body 2 p.constructor)

/-- The lines of the fallback function, with a blank line in front; a contract that does nothing on a call has
none. -/
def fallbackLines (p : Program) : List String :=
  if p.fallback.isEmpty then []
  else "" :: line 1 "function () external" :: block 1 "" (body 2 p.fallback)

/-- The lines in the braces of the contract. -/
def contractLines (p : Program) : List String :=
  Storage.declarations.map (line 1) ++ "" :: p.constructorLines ++ p.fallbackLines

/-- The lines of the whole source unit. -/
def lines (p : Program) : List String :=
  ["pragma solidity " ++ languageVersion ++ ";", "",
   "import \"" ++ librarySourceName ++ "\";", ""] ++
    block 0 ("contract " ++ p.name ++ " ") p.contractLines

/-- The source text: each line with a line feed behind it. -/
def source (p : Program) : String :=
  String.join (p.lines.map (· ++ "\n"))

end Program

theorem segments_ne_nil {is s : List Instruction} (h : s ∈ segments is) : s ≠ [] := by
  induction is generalizing s with
  | nil => simp [segments] at h
  | cons i is ih =>
    rw [segments] at h
    split at h
    · rename_i hs
      split at h
      · rcases List.mem_cons.1 h with rfl | h
        · simp
        · exact ih (hs ▸ List.mem_cons_of_mem _ h)
      · rcases List.mem_cons.1 h with rfl | h
        · simp
        · exact ih (hs ▸ h)
    · rcases List.mem_cons.1 h with rfl | h
      · simp
      · exact ih h

/-- Every instruction stands in one segment, in its place. -/
theorem flatten_segments (is : List Instruction) : (segments is).flatten = is := by
  induction is with
  | nil => rfl
  | cons i is ih =>
    rw [segments]
    split
    · rename_i hs
      rw [hs] at ih
      split <;> simp [← ih]
    · simp [ih]

end ProxyForge.Contract
