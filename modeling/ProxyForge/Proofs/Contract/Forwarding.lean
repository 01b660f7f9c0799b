import ProxyForge.Proofs.Assembly.Machine
import ProxyForge.Proofs.Contract.ReadBack

/-!
# Forwarding

The lines that hand a call over are read as four statements (`pieces?_forwardText`), and each of them does one thing:
the call data are written to the front of memory, the stretch that they fill is handed to the target, its return data
take their place, and they are returned or reverted with. Neither what memory held before nor what is left of longer
call data behind shorter return data is seen, since every stretch that is read is the one that was just written.
-/

namespace ProxyForge.Contract

open Assembly

/-! ## The text -/

/-- The lines of a fallback function that hand a call over. -/
def forwardText (target : Address) (gasReserve : UInt64) : List (List Char) :=
  ((Instruction.forward target gasReserve).lines 2).map String.toList

/-- The lines of the fallback function of a source, behind its header and up to the brace that closes it. -/
def fallbackText (source : String) : List (List Char) :=
  Reading.functionLines "\tfunction () external" (Text.lines (aroundLast '>' source.toList).2)

theorem fallbackText_source (p : Program) (filled : p.fallback ≠ []) :
    fallbackText p.source = (line 1 "\x7b" :: body 2 p.fallback).map String.toList := by
  rw [fallbackText, p.lines_behind_source, functionLines_fallback, if_neg (by simpa using filled)]

/-! ## Reading the text -/

namespace Forwarding

def zero : Expr := .literal "0".toList

def callDataSize : Expr := .call .callDataSize []

def returnDataSize : Expr := .call .returnDataSize []

/-- Writes the call data to the front of memory. -/
def copyIn : Statement := .perform .callDataCopy [zero, zero, callDataSize]

/-- Hands the front of memory to the target, with some gas kept back. -/
def handOver (reserve : List Char) : Statement :=
  .declare "result".toList <| .call .delegateCall
    [.call .sub [.call .gas [], .literal reserve], .name "to".toList, zero, callDataSize, zero, zero]

/-- Writes the return data to the front of memory. -/
def copyOut : Statement := .perform .returnDataCopy [zero, zero, returnDataSize]

/-- Ends with the front of memory. -/
def answer : Statement :=
  .switch (.name "result".toList) <|
    .case "0".toList (.cons (.perform .revert [zero, returnDataSize]) .nil) <|
    .otherwise (.cons (.perform .finish [zero, returnDataSize]) .nil)

/-- The block of the lines that hand a call over. -/
def forwardBlock (reserve : List Char) : Block :=
  .cons copyIn <| .cons (handOver reserve) <| .cons copyOut <| .cons answer .nil

/-- The pieces of the lines that hand a call over. -/
def forwardPieces (target reserve : List Char) : List Piece :=
  [.address "to".toList target, .assembly (forwardBlock reserve)]

/-- The tokens of the line that names the target. -/
def targetTokens (target : List Char) : List Token :=
  [.name "address".toList, .name "to".toList, .mark '=', .name "address".toList, .mark '(', .literal target, .mark ')',
   .mark ';']

/-- The tokens of the line of the call. -/
def callTokens (reserve : List Char) : List Token :=
  [.name "let".toList, .name "result".toList, .mark ':', .mark '=', .name "delegatecall".toList, .mark '(',
   .name "sub".toList, .mark '(', .name "gas".toList, .mark '(', .mark ')', .mark ',', .literal reserve, .mark ')',
   .mark ',', .name "to".toList, .mark ',', .literal "0".toList, .mark ',', .name "calldatasize".toList, .mark '(',
   .mark ')', .mark ',', .literal "0".toList, .mark ',', .literal "0".toList, .mark ')']

/-- The tokens of the lines that hand a call over, line by line. -/
def forwardTokens (target reserve : List Char) : List (List Token) :=
  [targetTokens target,
   [.name "assembly".toList, .mark '\x7b'],
   [.name "calldatacopy".toList, .mark '(', .literal "0".toList, .mark ',', .literal "0".toList, .mark ',',
    .name "calldatasize".toList, .mark '(', .mark ')', .mark ')'],
   callTokens reserve,
   [.name "returndatacopy".toList, .mark '(', .literal "0".toList, .mark ',', .literal "0".toList, .mark ',',
    .name "returndatasize".toList, .mark '(', .mark ')', .mark ')'],
   [.name "switch".toList, .name "result".toList],
   [.name "case".toList, .literal "0".toList, .mark '\x7b', .name "revert".toList, .mark '(', .literal "0".toList,
    .mark ',', .name "returndatasize".toList, .mark '(', .mark ')', .mark ')', .mark '\x7d'],
   [.name "default".toList, .mark '\x7b', .name "return".toList, .mark '(', .literal "0".toList, .mark ',',
    .name "returndatasize".toList, .mark '(', .mark ')', .mark ')', .mark '\x7d'],
   [.mark '\x7d']]

theorem tokens_targetLine (target : Address) :
    tokens (line 2 (Instruction.targetText target)).toList = targetTokens target.checksummed.toList := by
  have text : (line 2 (Instruction.targetText target)).toList =
      "\t\taddress to = address".toList ++ '(' :: (target.checksummed.toList ++ ");".toList) := by
    rw [toList_line]
    unfold Instruction.targetText
    simp
  have digit : target.checksummed.toList.head?.any Char.isDigit = true := by
    rw [Address.toList_checksummed]
    rfl
  rw [text, tokens_literal (by decide) _ (fun _ => Address.isAlphanum_checksummed) digit (by simp [isWordChar])]
  rfl

theorem tokens_callLine (gasReserve : UInt64) :
    tokens (line 3 (Instruction.callText gasReserve)).toList = callTokens (toString gasReserve.toNat).toList := by
  have text : (line 3 (Instruction.callText gasReserve)).toList =
      "\t\t\tlet result := delegatecall(sub(gas(),".toList ++
        ' ' :: ((toString gasReserve.toNat).toList ++ "), to, 0, calldatasize(), 0, 0)".toList) := by
    rw [toList_line]
    unfold Instruction.callText
    simp
  have digit : (toString gasReserve.toNat).toList.head?.any Char.isDigit = true := by
    cases digits : (toString gasReserve.toNat).toList with
    | nil => simp at digits
    | cons d ds => exact Literal.isDigit_of_mem_toString (digits ▸ List.mem_cons_self)
  rw [text, tokens_literal (by decide) _ (fun _ => Literal.isAlphanum_of_mem_toString) digit (by simp [isWordChar])]
  generalize (toString gasReserve.toNat).toList = digits
  rfl

theorem map_tokens_forwardText (target : Address) (gasReserve : UInt64) :
    (forwardText target gasReserve).map tokens =
      forwardTokens target.checksummed.toList (toString gasReserve.toNat).toList := by
  have lines : forwardText target gasReserve =
      (line 2 (Instruction.targetText target)).toList ::
        (line 2 ("assembly " ++ "\x7b")).toList :: (line 3 "calldatacopy(0, 0, calldatasize())").toList ::
        (line 3 (Instruction.callText gasReserve)).toList ::
        [line 3 "returndatacopy(0, 0, returndatasize())", line 3 "switch result",
         line 3 "case 0 \x7b revert(0, returndatasize()) \x7d",
         line 3 "default \x7b return(0, returndatasize()) \x7d", line 2 "\x7d"].map String.toList := rfl
  rw [lines]
  simp only [List.map_cons, tokens_targetLine, tokens_callLine]
  rfl

theorem readPieces_forwardTokens (target reserve : List Char) :
    readPieces (forwardTokens target reserve).flatten.length (forwardTokens target reserve).flatten =
      some (forwardPieces target reserve) := by
  have size : (forwardTokens target reserve).flatten.length = 83 := rfl
  rw [size]
  simp [forwardTokens, targetTokens, callTokens, readPieces, readBlock, readStatement, readCases, readExpr,
    readArguments, Operation.ofName?, Operation.table, List.lookup_cons, forwardPieces, forwardBlock, copyIn, handOver,
    copyOut, answer, zero, callDataSize, returnDataSize]

/-- The lines are read as their statements, whatever the target and the reserve. -/
theorem pieces?_forwardText (target : Address) (gasReserve : UInt64) :
    pieces? (forwardText target gasReserve) =
      some (forwardPieces target.checksummed.toList (toString gasReserve.toNat).toList) := by
  rw [pieces?, List.flatMap_def, map_tokens_forwardText]
  exact readPieces_forwardTokens _ _

/-! ## Running the statements -/

section Running

variable {env : Environment} {m : Machine}

theorem run_copyIn : (copyIn.execute env).run m = .ok () { m with memory := m.memory.write 0 env.callData.list } := by
  have arguments : (evaluateAll env [zero, zero, callDataSize]).run m = .ok [0, 0, env.callData.size] m := rfl
  rw [copyIn, run_perform arguments, run_callDataCopy]

/-- The call is made with what the front of memory holds. -/
theorem run_handOver {reserve : List Char} {kept : Word} (read : Reading.number? reserve = some kept) {target : Address}
    (named : m.locals.lookup "to".toList = some target.toWord)
    (held : m.memory.read 0 env.callData.size.toNat = env.callData.list) {call : DelegateCall}
    (made : call = ⟨env.gas - kept, target, env.callData.list⟩) :
    ((handOver reserve).execute env).run m = .ok ()
      { m with
        locals := ("result".toList, if (env.delegate call).succeeded then 1 else 0) :: m.locals
        returnData := (env.delegate call).data
        calls := m.calls ++ [call] } := by
  have gas : ((Expr.call .sub [.call .gas [], .literal reserve]).evaluate env).run m = .ok (env.gas - kept) m := by
    simp [Expr.evaluate, evaluateAll, read, expect, Operation.perform]
  have address : ((Expr.name "to".toList).evaluate env).run m = .ok target.toWord m := run_name named
  have nothing : (zero.evaluate env).run m = .ok 0 m := rfl
  have size : (callDataSize.evaluate env).run m = .ok env.callData.size m := rfl
  have arguments : (evaluateAll env [.call .sub [.call .gas [], .literal reserve], .name "to".toList, zero, callDataSize,
      zero, zero]).run m = .ok [env.gas - kept, target.toWord, 0, env.callData.size, 0, 0] m := by
    simp only [evaluateAll, EStateM.run_bind, EStateM.run_pure, nothing, size, address, gas]
  have input : call = ⟨env.gas - kept, target.toWord.setWidth 160, m.memory.read 0 env.callData.size.toNat⟩ := by
    simp [made, held, Address.toWord]
  have result : ((Expr.call .delegateCall [.call .sub [.call .gas [], .literal reserve], .name "to".toList, zero,
      callDataSize, zero, zero]).evaluate env).run m = .ok (if (env.delegate call).succeeded then 1 else 0)
        { m with returnData := (env.delegate call).data, calls := m.calls ++ [call] } := by
    rw [Expr.evaluate, EStateM.run_bind, arguments]
    simp only [EStateM.run_bind, run_delegateCall env m _ _ _ call input]
    rfl
  rw [handOver, run_declare result]

theorem run_copyOut : (copyOut.execute env).run m = .ok () { m with memory := m.memory.write 0 m.returnData.list } := by
  have arguments : (evaluateAll env [zero, zero, returnDataSize]).run m = .ok [0, 0, m.returnData.size] m := rfl
  rw [copyOut, run_perform arguments, run_returnDataCopy]

/-- The answer is what the front of memory holds. -/
theorem run_answer {succeeded : Bool} (named : m.locals.lookup "result".toList = some (if succeeded then 1 else 0))
    (held : m.memory.read 0 m.returnData.size.toNat = m.returnData.list) :
    (answer.execute env).run m =
      .error (if succeeded then .returned m.returnData.list else .reverted m.returnData.list) m := by
  have arguments : (evaluateAll env [zero, returnDataSize]).run m = .ok [0, m.returnData.size] m := rfl
  have result : ((Expr.name "result".toList).evaluate env).run m = .ok (if succeeded then 1 else 0) m := run_name named
  have literal : Reading.number? "0".toList = some 0 := rfl
  rw [answer, Statement.execute, EStateM.run_bind, result]
  simp only [execute_case literal]
  cases succeeded with
  | false =>
    apply run_inBlock_of_error
    apply run_cons_of_error
    rw [run_perform arguments, run_revert, held]
    rfl
  | true =>
    apply run_inBlock_of_error
    apply run_cons_of_error
    rw [run_perform arguments, run_finish, held]
    rfl

theorem number?_reserve (gasReserve : UInt64) :
    Reading.number? (toString gasReserve.toNat).toList = some (BitVec.ofNat 256 gasReserve.toNat) := by
  have small : gasReserve.toNat < Nat.pow 2 256 := Nat.lt_trans gasReserve.toNat_lt (by decide)
  have shown : (BitVec.ofNat 256 gasReserve.toNat).toNat = gasReserve.toNat := by
    rw [BitVec.toNat_ofNat, Nat.mod_eq_of_lt small]
  have read := Reading.number?_decimal (BitVec.ofNat 256 gasReserve.toNat)
  rwa [Word.decimal, shown] at read

/-- How a call ends that is handed over. -/
def ending (env : Environment) (call : DelegateCall) : Ending :=
  if (env.delegate call).succeeded then .returned (env.delegate call).data.list
  else .reverted (env.delegate call).data.list

/-- The machine that a call leaves which is handed over. -/
def answered (env : Environment) (target : Address) (call : DelegateCall) (m : Machine) : Machine where
  memory := (m.memory.write 0 env.callData.list).write 0 (env.delegate call).data.list
  locals := ("result".toList, if (env.delegate call).succeeded then 1 else 0) ::
    ("to".toList, target.toWord) :: m.locals
  returnData := (env.delegate call).data
  calls := m.calls ++ [call]

/-- The block of the lines that hand a call over, once the target is named. -/
theorem run_forwardBlock {reserve : List Char} {kept : Word} (read : Reading.number? reserve = some kept)
    (target : Address) {call : DelegateCall} (made : call = ⟨env.gas - kept, target, env.callData.list⟩) :
    ((forwardBlock reserve).execute env).run { m with locals := ("to".toList, target.toWord) :: m.locals } =
      .error (ending env call) (answered env target call m) := by
  have inFront : ∀ (memory : Memory) (bytes : Bytes),
      (memory.write 0 bytes.list).read 0 bytes.size.toNat = bytes.list := by
    intro memory bytes
    rw [Bytes.toNat_size, Memory.read_write]
  have answer : (answer.execute env).run (answered env target call m) =
      .error (ending env call) (answered env target call m) :=
    run_answer rfl (inFront _ _)
  rw [forwardBlock, run_cons_of_ok run_copyIn, run_cons_of_ok (run_handOver read rfl (inFront _ _) made),
    run_cons_of_ok run_copyOut]
  exact run_cons_of_error answer .nil

/-- The lines that hand a call over make one call with the call data, and end with its return data. -/
theorem run_forwardText (target : Address) (gasReserve : UInt64) {call : DelegateCall}
    (made : call = ⟨env.gas - BitVec.ofNat 256 gasReserve.toNat, target, env.callData.list⟩) :
    run env (forwardText target gasReserve) m = (ending env call, answered env target call m) := by
  have named : ((Piece.address "to".toList target.checksummed.toList).execute env).run m =
      .ok () { m with locals := ("to".toList, target.toWord) :: m.locals } := by
    rw [Piece.execute, Reading.address?_checksummed]
    rfl
  have block : ((Piece.assembly (forwardBlock (toString gasReserve.toNat).toList)).execute env).run
      { m with locals := ("to".toList, target.toWord) :: m.locals } =
        .error (ending env call) (answered env target call m) :=
    run_inBlock_of_error (run_forwardBlock (number?_reserve gasReserve) target made)
  rw [run, pieces?_forwardText]
  simp only [forwardPieces, List.forM_cons, EStateM.run_bind, named, block]

end Running

end Forwarding

/-- A fallback function that hands calls over does so transparently, whatever stands in front of those lines and
behind them: whenever they are reached, the delegate is called once, at the target and with the call data, and the
function returns what the delegate returned or reverts with what it reverted with. -/
theorem forward_transparent (name : String) (constructor before after : List Instruction) (target : Address)
    (gasReserve : UInt64) :
    fallbackText (Program.source ⟨name, constructor, before ++ .forward target gasReserve :: after⟩) =
        (line 1 "\x7b" :: body 2 before).map String.toList ++ forwardText target gasReserve ++
          (body 2 after).map String.toList ∧
      ∀ (env : Environment) (m : Machine),
        let call : DelegateCall := ⟨env.gas - BitVec.ofNat 256 gasReserve.toNat, target, env.callData.list⟩
        (run env (forwardText target gasReserve) m).1 =
            (if (env.delegate call).succeeded then .returned (env.delegate call).data.list
              else .reverted (env.delegate call).data.list) ∧
          (run env (forwardText target gasReserve) m).2.calls = m.calls ++ [call] := by
  constructor
  · rw [fallbackText_source _ (by simp), body_append_cons rfl]
    simp [forwardText]
  · intro env m call
    rw [Forwarding.run_forwardText target gasReserve rfl]
    exact ⟨rfl, rfl⟩

end ProxyForge.Contract
