import ProxyForge.Proofs.Assembly.Syntax
import ProxyForge.Proofs.Contract.Reading

/-!
# Running assembly

What the operations mean to the machine: values are words, memory holds a byte at every address, and a call that is
delegated is answered with any reply. Gas is not metered: the gas left is some word. A run ends by returning or
reverting with a stretch of memory, or it fails; what has been delegated so far stays with it. A stretch that was
written to memory is read back from it (`Memory.read_write`), and copying all of a byte string gives the byte string
(`slice_all`).
-/

namespace ProxyForge.Assembly

open Contract

/-- A byte string whose size is a word. -/
structure Bytes where
  list : List UInt8
  short : list.length < Nat.pow 2 256

/-- The size of a byte string. -/
def Bytes.size (b : Bytes) : Word :=
  BitVec.ofNat 256 b.list.length

/-- The bytes of a stretch of a byte string, with zeros behind its end. -/
def slice (bytes : List UInt8) (start size : Nat) : List UInt8 :=
  (List.range size).map fun i => bytes.getD (start + i) 0

/-- The bytes at all addresses. -/
def Memory := Nat → UInt8

namespace Memory

/-- The bytes of a stretch of memory. -/
def read (m : Memory) (start size : Nat) : List UInt8 :=
  (List.range size).map fun i => m (start + i)

/-- Memory with bytes written to it from an address on. -/
def write (m : Memory) (start : Nat) (bytes : List UInt8) : Memory :=
  fun address => if start ≤ address then bytes.getD (address - start) (m address) else m address

end Memory

/-- A call of another contract's code. -/
structure DelegateCall where
  gas : Word
  target : Address
  input : List UInt8
  deriving DecidableEq

/-- What a call comes to. -/
structure Reply where
  succeeded : Bool
  data : Bytes

/-- What a function is called with, and how the calls it delegates are answered. -/
structure Environment where
  callData : Bytes
  gas : Word
  delegate : DelegateCall → Reply

/-- The state of a run: the return data are those of the last call, and the calls stand in their order. -/
structure Machine where
  memory : Memory
  locals : List (List Char × Word)
  returnData : Bytes
  calls : List DelegateCall

/-- How a run ends. -/
inductive Ending where
  | returned (data : List UInt8)
  | reverted (data : List UInt8)
  | failed
  deriving DecidableEq

/-- A step of a run, which may end it. -/
abbrev Step (α : Type) := EStateM Ending Machine α

/-! ## Operations -/

namespace Operation

/-- What an operation does with its arguments, and its value if it has one. A call writes no more of its return data to
memory than it was given room for, and return data cannot be copied beyond their end. -/
def perform (env : Environment) : Operation → List Word → Step (Option Word)
  | callDataSize, [] => return env.callData.size
  | returnDataSize, [] => return (← get).returnData.size
  | gas, [] => return env.gas
  | sub, [a, b] => return a - b
  | callDataCopy, [target, source, size] => do
    modify fun m => { m with memory := m.memory.write target.toNat (slice env.callData.list source.toNat size.toNat) }
    return none
  | returnDataCopy, [target, source, size] => do
    let data := (← get).returnData.list
    if data.length < source.toNat + size.toNat then throw .failed
    modify fun m => { m with memory := m.memory.write target.toNat (slice data source.toNat size.toNat) }
    return none
  | delegateCall, [given, target, input, inputSize, output, outputSize] => do
    let m ← get
    let call := { gas := given, target := target.setWidth 160, input := m.memory.read input.toNat inputSize.toNat }
    let reply := env.delegate call
    set { m with
      memory := m.memory.write output.toNat (reply.data.list.take outputSize.toNat)
      returnData := reply.data
      calls := m.calls ++ [call] }
    return some (if reply.succeeded then 1 else 0)
  | finish, [start, size] => do throw (.returned ((← get).memory.read start.toNat size.toNat))
  | revert, [start, size] => do throw (.reverted ((← get).memory.read start.toNat size.toNat))
  | _, _ => throw .failed

end Operation

/-! ## Expressions and statements -/

/-- A value, where there is one. -/
def expect {α : Type} : Option α → Step α
  | some a => return a
  | none => throw .failed

mutual

/-- The value of an expression. -/
def Expr.evaluate (env : Environment) : Expr → Step Word
  | .literal text => expect (Reading.number? text)
  | .name text => do expect ((← get).locals.lookup text)
  | .call operation arguments => do expect (← operation.perform env (← evaluateAll env arguments))

/-- The values of arguments, the last of which is evaluated first. -/
def evaluateAll (env : Environment) : List Expr → Step (List Word)
  | [] => return []
  | e :: es => do
    let values ← evaluateAll env es
    return (← e.evaluate env) :: values

end

/-- Adds a variable. -/
def declare (name : List Char) (value : Word) : Step Unit :=
  modify fun m => { m with locals := (name, value) :: m.locals }

/-- Executes a block, whose variables end with it. -/
def inBlock (block : Step Unit) : Step Unit := do
  let outer := (← get).locals
  block
  modify fun m => { m with locals := outer }

mutual

/-- Executes a statement. -/
def Statement.execute (env : Environment) : Statement → Step Unit
  | .perform operation arguments => do
    let value ← operation.perform env (← evaluateAll env arguments)
    if value.isSome then throw .failed
  | .declare name value => do Assembly.declare name (← value.evaluate env)
  | .switch subject cases => do cases.execute env (← subject.evaluate env)

/-- Executes statements in their order. -/
def Block.execute (env : Environment) : Block → Step Unit
  | .nil => return ()
  | .cons first rest => do
    first.execute env
    rest.execute env

/-- Executes the block of the first literal that has a value. -/
def Cases.execute (env : Environment) : Cases → Word → Step Unit
  | .otherwise block, _ => inBlock (block.execute env)
  | .case literal block rest, value => do
    if (← expect (Reading.number? literal)) = value then inBlock (block.execute env) else rest.execute env value

end

/-- Executes a piece of a function body. -/
def Piece.execute (env : Environment) : Piece → Step Unit
  | .address name literal => do Assembly.declare name (← expect (Reading.address? literal)).toWord
  | .assembly block => inBlock (block.execute env)

/-- How the lines of a function body end, and the machine that they leave. A body without an end of its own returns
nothing, and lines that cannot be read fail. -/
def run (env : Environment) (lines : List (List Char)) (m : Machine) : Ending × Machine :=
  match pieces? lines with
  | none => (.failed, m)
  | some pieces =>
    match (forM pieces (Piece.execute env)).run m with
    | .ok _ m => (.returned [], m)
    | .error ending m => (ending, m)

/-! ## Stretches -/

theorem Bytes.toNat_size (b : Bytes) : b.size.toNat = b.list.length := by
  rw [size, BitVec.toNat_ofNat, Nat.mod_eq_of_lt b.short]

/-- All of a byte string is the byte string. -/
theorem slice_all (bytes : List UInt8) : slice bytes 0 bytes.length = bytes := by
  apply List.ext_getElem
  · simp [slice]
  · intro i inside _
    simp only [slice, List.length_map, List.length_range] at inside
    simp [slice, inside]

namespace Memory

/-- What was written to a stretch is read back from it, whatever memory held before. -/
theorem read_write (m : Memory) (start : Nat) (bytes : List UInt8) :
    (m.write start bytes).read start bytes.length = bytes := by
  apply List.ext_getElem
  · simp [read]
  · intro i inside _
    simp only [read, List.length_map, List.length_range] at inside
    simp [read, write, inside]

theorem write_nil (m : Memory) (start : Nat) : m.write start [] = m := by
  funext address
  simp [write]

end Memory

/-! ## Copies and calls -/

section Perform

variable (env : Environment) (m : Machine)

/-- Copying as many bytes as the call data have copies the call data. -/
theorem run_callDataCopy : (Operation.callDataCopy.perform env [0, 0, env.callData.size]).run m =
    .ok none { m with memory := m.memory.write 0 env.callData.list } := by
  have whole : slice env.callData.list (0 : Word).toNat env.callData.size.toNat = env.callData.list := by
    rw [Bytes.toNat_size]
    exact slice_all _
  rw [Operation.perform, EStateM.run_bind, EStateM.run_modify, whole]
  rfl

/-- Copying as many bytes as the return data have copies the return data, and does not fail. -/
theorem run_returnDataCopy : (Operation.returnDataCopy.perform env [0, 0, m.returnData.size]).run m =
    .ok none { m with memory := m.memory.write 0 m.returnData.list } := by
  have whole : slice m.returnData.list (0 : Word).toNat m.returnData.size.toNat = m.returnData.list := by
    rw [Bytes.toNat_size]
    exact slice_all _
  have inside : ¬ m.returnData.list.length < (0 : Word).toNat + m.returnData.size.toNat := by
    rw [Bytes.toNat_size]
    simp
  rw [Operation.perform, EStateM.run_bind, EStateM.run_get]
  simp only [inside, if_false]
  rw [whole]
  rfl

/-- A call without room for its return data leaves memory as it was. -/
theorem run_delegateCall (given target size : Word) (call : DelegateCall)
    (made : call = ⟨given, target.setWidth 160, m.memory.read 0 size.toNat⟩) :
    (Operation.delegateCall.perform env [given, target, 0, size, 0, 0]).run m =
      .ok (some (if (env.delegate call).succeeded then 1 else 0))
        { m with returnData := (env.delegate call).data, calls := m.calls ++ [call] } := by
  have zero : (0 : Word).toNat = 0 := rfl
  have unwritten : m.memory.write 0 ((env.delegate call).data.list.take 0) = m.memory := by
    rw [List.take_zero, Memory.write_nil]
  rw [Operation.perform, EStateM.run_bind, EStateM.run_get]
  simp only [EStateM.run_bind, EStateM.run_set, EStateM.run_pure, zero, ← made, unwritten]

theorem run_finish (size : Word) : (Operation.finish.perform env [0, size]).run m =
    .error (.returned (m.memory.read 0 size.toNat)) m := rfl

theorem run_revert (size : Word) : (Operation.revert.perform env [0, size]).run m =
    .error (.reverted (m.memory.read 0 size.toNat)) m := rfl

end Perform

/-! ## Statements -/

section Execute

variable {env : Environment} {m : Machine}

/-- A statement does what its operation does, which may not have a value. -/
theorem run_perform {operation : Operation} {arguments : List Expr} {values : List Word}
    (evaluated : (evaluateAll env arguments).run m = .ok values m) :
    ((Statement.perform operation arguments).execute env).run m =
      match (operation.perform env values).run m with
      | .ok none m => .ok () m
      | .ok (some _) m => .error .failed m
      | .error ending m => .error ending m := by
  rw [Statement.execute, EStateM.run_bind, evaluated]
  simp only [EStateM.run_bind]
  rcases (operation.perform env values).run m with ⟨_ | value, m⟩ | ⟨ending, m⟩ <;> rfl

/-- A variable is declared with the value of an expression. -/
theorem run_declare {name : List Char} {value : Expr} {w : Word} {after : Machine}
    (evaluated : (value.evaluate env).run m = .ok w after) :
    ((Statement.declare name value).execute env).run m = .ok () { after with locals := (name, w) :: after.locals } := by
  rw [Statement.execute, EStateM.run_bind, evaluated]
  rfl

/-- A block that ends the run ends it as it is. -/
theorem run_inBlock_of_error {block : Step Unit} {ending : Ending} {after : Machine}
    (ended : block.run m = .error ending after) : (inBlock block).run m = .error ending after := by
  rw [inBlock, EStateM.run_bind, EStateM.run_get]
  simp only [EStateM.run_bind, ended]

/-- Statements behind one that ends the run are not executed. -/
theorem run_cons_of_error {first : Statement} {ending : Ending} {after : Machine}
    (ended : (first.execute env).run m = .error ending after) (rest : Block) :
    ((Block.cons first rest).execute env).run m = .error ending after := by
  rw [Block.execute, EStateM.run_bind, ended]

theorem run_cons_of_ok {first : Statement} {after : Machine} (executed : (first.execute env).run m = .ok () after)
    (rest : Block) : ((Block.cons first rest).execute env).run m = (rest.execute env).run after := by
  rw [Block.execute, EStateM.run_bind, executed]

/-- A literal whose value is another one is passed by. -/
theorem execute_case {literal : List Char} {w : Word} (read : Reading.number? literal = some w) (block : Block)
    (rest : Cases) (value : Word) : (Cases.case literal block rest).execute env value =
      if w = value then inBlock (block.execute env) else rest.execute env value := by
  rw [Cases.execute, read]
  rfl

theorem run_name {text : List Char} {w : Word} (named : m.locals.lookup text = some w) :
    ((Expr.name text).evaluate env).run m = .ok w m := by
  simp only [Expr.evaluate, EStateM.run_bind, EStateM.run_get, named, expect, EStateM.run_pure]

end Execute

end ProxyForge.Assembly
